import Referral.Number.Digits
import Referral.Text.Basic
import Referral.Text.Printable

namespace Referral.Text

def singleQuote : Char := '\x27'

def doubleQuote : Char := '\x22'

def backslash : Char := '\x5c'

def quoteFor (s : List Symbol) : Char :=
  if s.contains (.char singleQuote) && !s.contains (.char doubleQuote) then doubleQuote
  else singleQuote

def escapeCode (n : Nat) : List Char :=
  if n < 0x100 then backslash :: 'x' :: (hexDigits 2 n).toList
  else if n < 0x10000 then backslash :: 'u' :: (hexDigits 4 n).toList
  else backslash :: 'U' :: (hexDigits 8 n).toList

def escapeChar (q c : Char) : List Char :=
  if c = q || c = backslash then [backslash, c]
  else if c = '\n' then [backslash, 'n']
  else if c = '\r' then [backslash, 'r']
  else if c = '\t' then [backslash, 't']
  else if isPrintable c then [c]
  else escapeCode c.toNat

def escapeSymbol (q : Char) : Symbol → List Char
  | .char c => escapeChar q c
  | u => escapeCode u.code

def quoted (t : Text) : String :=
  let q := quoteFor t.symbols
  String.ofList (q :: (t.symbols.flatMap (escapeSymbol q) ++ [q]))

end Referral.Text
