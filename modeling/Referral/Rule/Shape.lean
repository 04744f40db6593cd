
namespace Referral

inductive ShapeFault where
  | notMapping
  | ruleNotMapping
  | unlistable
  | notPair
  | pairLength
  | unfitKey
  | tooDeep
  | missing (name : String)
  | timeNotText
  | timeMalformed
  deriving DecidableEq

end Referral
