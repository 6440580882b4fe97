import FormSieve.Net.Host
import FormSieve.Text.Form

/-!
# URLs

A URL is read the way browsers read it: blanks around it and line breaks within it do not
count, a backslash is as good as a slash in the schemes of the web, dot segments are resolved,
and what may not stand in a part is percent-encoded there. An escape that is already there is
kept as it is, and so is a percent sign that begins none.

Credentials are dropped: they are not part of what is requested and are never shown.
-/

namespace FormSieve

namespace Url

/-- The path of a URL: a list of segments behind slashes, or a text that is not divided. -/
inductive Path where
  | segments (list : List (List Char))
  | undivided (text : List Char)
deriving DecidableEq, Repr

end Url

structure Url where
  scheme : List Char
  /-- There is no host in URLs that do not locate anything, and in those of local files. -/
  host : Option Host
  /-- The number of the service on the host, if it is not the usual one of the scheme. -/
  service : Option UInt16
  path : Url.Path
  query : Option (List Char)
  fragment : Option (List Char)
deriving DecidableEq, Repr

namespace Url

/-! ## Parts and the characters in them -/

/-- Visible ASCII bytes. -/
def isVisible (b : UInt8) : Bool := 0x20 < b && b < 0x7F

/-- The bytes that a fragment keeps: visible ones, but not `"`, `<`, `>` and a backquote. -/
def fragmentKeeps (b : UInt8) : Bool :=
  isVisible b && b ≠ 0x22 && b ≠ 0x3C && b ≠ 0x3E && b ≠ 0x60

/-- In a path the number sign, the question mark and braces are not kept either. -/
def pathKeeps (b : UInt8) : Bool :=
  fragmentKeeps b && b ≠ 0x23 && b ≠ 0x3F && b ≠ 0x7B && b ≠ 0x7D

/-- The bytes that a query keeps: visible ones, but not `"`, `#`, `<` and `>`. -/
def queryKeeps (b : UInt8) : Bool :=
  isVisible b && b ≠ 0x22 && b ≠ 0x23 && b ≠ 0x3C && b ≠ 0x3E

/-- In the schemes of the web an apostrophe is not kept in a query. -/
def webQueryKeeps (b : UInt8) : Bool := queryKeeps b && b ≠ 0x27

/-- The bytes that an undivided path keeps: blanks and visible ones. -/
def undividedKeeps (b : UInt8) : Bool := b = 0x20 || isVisible b

/-- Percent-encodes what a part does not keep. -/
def encode (keeps : UInt8 → Bool) (cs : List Char) : List Char :=
  cs.flatMap fun c => Percent.encodeWith keeps (String.utf8EncodeChar c)

/-- The schemes of the web, each with its usual service. Local files have none. -/
def webSchemes : List (String × Option UInt16) :=
  [("http", some 80), ("https", some 443), ("ws", some 80), ("wss", some 443), ("ftp", some 21),
    ("file", none)]

def isWebScheme (scheme : List Char) : Bool :=
  webSchemes.any fun (name, _) => name.toList = scheme

/-- The usual service of a scheme. -/
def usualService? (scheme : List Char) : Option UInt16 :=
  (webSchemes.find? fun (name, _) => name.toList = scheme).bind (·.2)

/-! ## Reading -/

/-- A control character or a blank. -/
def isEdge (c : Char) : Bool := c.toNat ≤ 0x20

/-- The text without edges at its ends and without tabs and line breaks in it. -/
def clean (cs : List Char) : List Char :=
  (((cs.dropWhile isEdge).reverse.dropWhile isEdge).reverse).filter fun c =>
    c ≠ '\t' && c ≠ '\n' && c ≠ '\r'

/-- A character of a scheme. -/
def isSchemeChar (c : Char) : Bool := c.isAlphanum || c = '+' || c = '-' || c = '.'

/-- The scheme, in lower case, and what follows the colon behind it. -/
def scheme? (cs : List Char) : Option (List Char × List Char) :=
  match cs.takeWhile isSchemeChar, cs.dropWhile isSchemeChar with
  | first :: more, ':' :: rest =>
    if first.isAlpha then some ((first :: more).map Char.toLower, rest) else none
  | _, _ => none

/-- What separates segments of a path. -/
def isSlash (web : Bool) (c : Char) : Bool := c = '/' || web && c = '\\'

/-- Whether an authority or a path ends before this character. -/
def endsPath (c : Char) : Bool := c = '?' || c = '#'

/-- Divides at every slash: one more piece than there are slashes. -/
def splitSlashes (web : Bool) : List Char → List (List Char)
  | [] => [[]]
  | c :: rest =>
    if isSlash web c then [] :: splitSlashes web rest
    else
      match splitSlashes web rest with
      | [] => [[c]]
      | piece :: pieces => (c :: piece) :: pieces

/-- A segment with its encoded points written out. -/
def plainDots : List Char → List Char
  | '%' :: '2' :: e :: rest =>
    if e = 'e' ∨ e = 'E' then '.' :: plainDots rest else '%' :: '2' :: plainDots (e :: rest)
  | c :: rest => c :: plainDots rest
  | [] => []

/-- A segment that adds nothing to the path. -/
def isSingleDot (segment : List Char) : Bool := plainDots segment = ['.']

/-- A segment that takes the one before it away. -/
def isDoubleDot (segment : List Char) : Bool := plainDots segment = ['.', '.']

/-- The letter of a drive. Two points do not lead out of it. -/
def isDriveLetter : List Char → Bool
  | [letter, mark] => letter.isAlpha && (mark = ':' || mark = '|')
  | _ => false

/-- The segments, last one first, with the last one taken away. -/
def parent : List (List Char) → List (List Char)
  | [] => []
  | last :: before => if isDriveLetter last then last :: before else before

/-- Resolves the segments of a path one by one; `before` holds those before them, last one
first. Points at the end leave an empty segment. -/
def resolve (before : List (List Char)) : List (List Char) → List (List Char)
  | [] => before.reverse
  | segment :: rest =>
    let following (before : List (List Char)) : List (List Char) :=
      if rest.isEmpty then ([] :: before).reverse else resolve before rest
    if isDoubleDot segment then following (parent before)
    else if isSingleDot segment then following before
    else resolve (encode pathKeeps segment :: before) rest

/-- Reads a path, which in the schemes of the web has at least one segment. -/
def Path.parse (web : Bool) (cs : List Char) : Path :=
  match cs with
  | [] => if web then .segments [[]] else .segments []
  | c :: rest =>
    if isSlash web c then .segments (resolve [] (splitSlashes web rest))
    else .segments (resolve [] (splitSlashes web (c :: rest)))

/-- What stands behind the last `@`. -/
def afterCredentials (cs : List Char) : List Char := (cs.reverse.takeWhile (· ≠ '@')).reverse

/-- Cuts an authority at the first colon that is not in brackets. -/
def cutService (bracketed : Bool) : List Char → List Char × Option (List Char)
  | [] => ([], none)
  | c :: rest =>
    if c = ':' && !bracketed then ([], some rest)
    else
      let (host, service) := cutService (c = '[' || bracketed && c ≠ ']') rest
      (c :: host, service)

/-- The service on a host; `none` inside if it is the usual one or not given. -/
def service? (scheme digits : List Char) : Option (Option UInt16) :=
  if digits.isEmpty then some none
  else
    (decimalBelow? (2 ^ 16) digits).map fun n =>
      if usualService? scheme = some (UInt16.ofNat n) then none else some (UInt16.ofNat n)

/-- A host in a scheme that does not belong to the web is taken as it is. -/
def plainHost? (cs : List Char) : Option Host :=
  match cs with
  | '[' :: _ => Host.parse? cs
  | cs =>
    if cs.any fun c => c ≠ '%' && Host.forbidden.contains c then none
    else some (.name (encode undividedKeeps cs))

/-- The host and the service of an authority. -/
def authority? (scheme : List Char) (web : Bool) (cs : List Char) :
    Option (Host × Option UInt16) := do
  let (hostText, serviceText) := cutService false (afterCredentials cs)
  let host ← if web then Host.parse? hostText else plainHost? hostText
  if host = .name [] ∧ serviceText.isSome then none
  else return (host, ← service? scheme (serviceText.getD []))

/-- A URL whose host and path are known; `rest` begins with its query or its fragment. -/
def withRest (scheme : List Char) (host : Option Host) (service : Option UInt16) (path : Path)
    (rest : List Char) : Url where
  scheme := scheme
  host := host
  service := service
  path := path
  query :=
    match rest with
    | '?' :: query =>
      some (encode (if isWebScheme scheme then webQueryKeeps else queryKeeps)
        (query.takeWhile (· ≠ '#')))
    | _ => none
  fragment :=
    match rest.dropWhile (· ≠ '#') with
    | _ :: fragment => some (encode fragmentKeeps fragment)
    | [] => none

/-- A URL from behind the slashes that precede its host. -/
def located? (scheme : List Char) (web : Bool) (cs : List Char) : Option Url :=
  let inAuthority (c : Char) : Bool := !(isSlash web c || endsPath c)
  let rest := cs.dropWhile inAuthority
  (authority? scheme web (cs.takeWhile inAuthority)).map fun (host, service) =>
    withRest scheme (some host) service (Path.parse web (rest.takeWhile (!endsPath ·)))
      (rest.dropWhile (!endsPath ·))

/-- The URL of a local file, from behind its scheme. -/
def localFile? (scheme cs : List Char) : Option Url :=
  let bare (cs : List Char) : Url :=
    withRest scheme none none (Path.parse true (cs.takeWhile (!endsPath ·)))
      (cs.dropWhile (!endsPath ·))
  match cs with
  | a :: b :: rest =>
    if isSlash true a && isSlash true b then
      let inHost (c : Char) : Bool := !(isSlash true c || endsPath c)
      let host := rest.takeWhile inHost
      if host.isEmpty then some (bare (rest.dropWhile inHost))
      else
        (Host.parse? host).map fun h =>
          { bare (rest.dropWhile inHost) with
            host := if h = .name "localhost".toList then none else some h }
    else some (bare (a :: b :: rest))
  | cs => some (bare cs)

/-- A URL from behind its scheme. In the schemes of the web any number of slashes precedes the
host. -/
def ofScheme? (scheme cs : List Char) : Option Url :=
  if scheme = "file".toList then localFile? scheme cs
  else if isWebScheme scheme then located? scheme true (cs.dropWhile (isSlash true))
  else
    match cs with
    | '/' :: '/' :: rest => located? scheme false rest
    | '/' :: rest =>
      some (withRest scheme none none (Path.parse false ('/' :: rest.takeWhile (!endsPath ·)))
        (rest.dropWhile (!endsPath ·)))
    | cs =>
      some (withRest scheme none none
        (.undivided (encode undividedKeeps (cs.takeWhile (!endsPath ·))))
        (cs.dropWhile (!endsPath ·)))

/-- Reads a URL. One without a scheme is none. -/
def parse? (s : String) : Option Url :=
  (scheme? (clean s.toList)).bind fun (scheme, rest) => ofScheme? scheme rest

/-! ## Writing -/

def Path.print : Path → List Char
  | .segments list => list.flatMap fun segment => '/' :: segment
  | .undivided text => text

/-- What a request for the URL asks the host for. -/
def target (u : Url) : List Char :=
  u.path.print ++ (match u.query with | some query => '?' :: query | none => [])

def print (u : Url) : String :=
  let authority :=
    match u.host with
    | some host =>
      "//".toList ++ host.print ++
        (match u.service with | some n => ':' :: Nat.toDigits 10 n.toNat | none => [])
    | none => if u.scheme = "file".toList then "//".toList else []
  String.ofList <|
    u.scheme ++ ':' :: (authority ++ u.target ++
      (match u.fragment with | some fragment => '#' :: fragment | none => []))

/-- Whether there is a host with a name. -/
def hasHost (u : Url) : Bool :=
  match u.host with
  | none => false
  | some host => !host.print.isEmpty

/-- Adds pairs to the query. A query that then has nothing in it is left out. -/
def addPairs (u : Url) (pairs : List (String × String)) : Url :=
  let added := (Form.encode pairs).toList
  let query :=
    match u.query with
    | none | some [] => added
    | some query => if pairs.isEmpty then query else query ++ '&' :: added
  { u with query := if query.isEmpty then none else some query }

end Url

end FormSieve
