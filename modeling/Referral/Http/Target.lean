import Referral.Number.Digits
import Referral.Text.Bytes
import Referral.Text.CharClass

namespace Referral.Http

def charBytes (c : Char) : List Nat := (String.singleton c).toUTF8.toList.map UInt8.toNat

def unescapeBytes : List Char → List Nat
  | [] => []
  | '%' :: a :: b :: rest =>
    match hexValue? a, hexValue? b with
    | some x, some y => (16 * x + y) :: unescapeBytes rest
    | _, _ => charBytes '%' ++ unescapeBytes (a :: b :: rest)
  | c :: rest => charBytes c ++ unescapeBytes rest

def unescape (s : List Char) : List Char := Text.ofBytes (unescapeBytes s)

/-- The segments of a path without those of one dot, and without those of two together with the
segment before each. The root stays. -/
def withoutDots (segments : List String) : List String :=
  (segments.foldl (fun (kept : List String) segment =>
    if segment = "." then kept
    else if segment = ".." then if kept = [""] then kept else kept.drop 1
    else segment :: kept) []).reverse

/-- The path as it is routed by. Escapes are resolved twice, after the dot segments. -/
def routedPath (path : List Char) : String :=
  let segments := (String.ofList path).splitOn "/"
  let plain := String.intercalate "/" (withoutDots segments)
  if plain.isEmpty then "/" else String.ofList (unescape (unescape plain.toList))

def queryPairs (query : List Char) : List (String × String) :=
  let clean (cs : List Char) : String :=
    String.ofList (unescape (cs.map fun c => if c = '+' then ' ' else c))
  ((String.ofList query).splitOn "&").filterMap fun pair =>
    let (name, value) := pair.toList.span (· ≠ '=')
    if pair.isEmpty then none else some (clean name, clean (value.drop 1))

structure Target where
  path : String
  query : List (String × String)

namespace Target

def takeScheme (s : List Char) : List Char × List Char :=
  let (name, rest) := s.span fun c => c.isAlphanum || c = '+' || c = '-' || c = '.'
  match rest with
  | ':' :: after => if name.head?.all Char.isAlpha then (name, after) else ([], s)
  | _ => ([], s)

def takeHost : List Char → List Char × List Char
  | '/' :: '/' :: rest => rest.span (· ≠ '/')
  | s => ([], s)

/-- The target of a text, absent if the text has control characters, or a path that could be taken
for a scheme or a host. A path without scheme and host starts at the root. -/
def of? (s : String) : Option Target :=
  let body := s.toList.takeWhile (· ≠ '#')
  let (front, query) := body.span (· ≠ '?')
  let (scheme, rest) := takeScheme front
  let (host, path) := takeHost rest
  let isBare := scheme.isEmpty && host.isEmpty
  let isMistakable := path.head? = some ':' || "//".toList.isPrefixOf path
  if s.any fun c => c.toNat < 0x20 || c.toNat = 0x7f then none
  else if isBare && isMistakable then none
  else
    let rooted := if scheme.isEmpty || host.isEmpty then '/' :: path.dropWhile (· = '/') else path
    some ⟨routedPath rooted, queryPairs (query.drop 1)⟩

/-- The path as it is logged: without line breaks and tabs, and up to the first mark that would end
it. -/
def loggedPath (t : Target) : String :=
  String.ofList ((t.path.toList.filter fun c => c ≠ '\t' && c ≠ '\r' && c ≠ '\n').takeWhile
    fun c => c ≠ '?' && c ≠ '#')

end Target

end Referral.Http
