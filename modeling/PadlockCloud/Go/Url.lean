import PadlockCloud.Go.Encoding
import PadlockCloud.Go.Http

/-!
# `net/url`, `path.Clean` and `http.Redirect`

A redirect target is checked, stored, rewritten and sent as a string, and each
of these places looks at it differently: `url.Parse` splits it, `URL.String`
puts it together again, and `http.Redirect` cleans what precedes the first
question mark, the fragment included.

What stands between `//` and the next slash is left to `parseAuthority` and
its inverse, which are a parameter.
-/

namespace PadlockCloud

/-- The authority of a URL: its user info and its host. -/
structure NetUrl where
  parseAuthority : GoString → Option (Option GoString × GoString)
  printAuthority : Option GoString → GoString → GoString

structure Url where
  scheme : GoString := []
  opaquePart : GoString := []
  user : Option GoString := none
  host : GoString := []
  path : GoString := []
  rawPath : GoString := []
  forceQuery : Bool := false
  rawQuery : GoString := []
  fragment : GoString := []
  deriving DecidableEq

namespace Url

/-! ## Percent encoding -/

def isUpper (c : UInt8) : Bool := byte 'A' ≤ c && c ≤ byte 'Z'

def isLower (c : UInt8) : Bool := byte 'a' ≤ c && c ≤ byte 'z'

def isAlphanumeric (c : UInt8) : Bool := isUpper c || isLower c || GoString.isDigit c

def unhex (c : UInt8) : Option UInt8 :=
  if GoString.isDigit c then some (c - byte '0')
  else if byte 'a' ≤ c && c ≤ byte 'f' then some (c - byte 'a' + 10)
  else if byte 'A' ≤ c && c ≤ byte 'F' then some (c - byte 'A' + 10)
  else none

/-- `unescape` for paths and fragments. -/
def unescape : GoString → Option GoString
  | [] => some []
  | c :: s =>
    if c = byte '%' then
      match s with
      | a :: b :: s =>
        match unhex a, unhex b with
        | some high, some low => (unescape s).map ((high * 16 + low) :: ·)
        | _, _ => none
      | _ => none
    else (unescape s).map (c :: ·)

/-- `QueryUnescape`, where a plus stands for a space. -/
def queryUnescape (s : GoString) : Option GoString :=
  unescape (s.map fun c => if c = byte '+' then byte ' ' else c)

/-- What a string is escaped for. -/
inductive Encoding where
  | path
  | queryComponent
  | fragment
  deriving DecidableEq

def shouldEscape (mode : Encoding) (c : UInt8) : Bool :=
  if isAlphanumeric c || c ∈ lit "-_.~" then false
  else if c ∈ lit "$&+,/:;=?@" then
    match mode with
    | .path => c = byte '?'
    | .queryComponent => true
    | .fragment => false
  else !(mode = .fragment && c ∈ lit "!()*")

/-- The upper case hexadecimal digit of a four-bit value. -/
def upperHex (n : UInt8) : UInt8 := if n < 10 then byte '0' + n else byte 'A' + (n - 10)

def escape (mode : Encoding) (s : GoString) : GoString :=
  s.flatMap fun c =>
    if mode = .queryComponent ∧ c = byte ' ' then [byte '+']
    else if shouldEscape mode c then [byte '%', upperHex (c >>> 4), upperHex (c &&& 0x0F)]
    else [c]

/-! ## Queries -/

/-- `url.Values`, with the keys in the order of their first occurrence. -/
abbrev Values := List (GoString × List GoString)

def Values.add (q : Values) (key value : GoString) : Values :=
  if q.any fun entry => entry.1 = key then
    q.map fun entry => if entry.1 = key then (key, entry.2 ++ [value]) else entry
  else q ++ [(key, [value])]

def Values.set (q : Values) (key value : GoString) : Values :=
  q.filter (fun entry => entry.1 ≠ key) ++ [(key, [value])]

/-- `url.ParseQuery`, where entries that cannot be unescaped are dropped. -/
def parseQuery (query : GoString) : Values :=
  (query.splitOnP fun c => c = byte '&' || c = byte ';').foldl
    (fun q entry =>
      if entry = [] then q
      else
        match queryUnescape (entry.takeWhile (· ≠ byte '=')),
          queryUnescape ((entry.dropWhile (· ≠ byte '=')).drop 1) with
        | some key, some value => q.add key value
        | _, _ => q)
    []

/-- `Values.Encode` -/
def Values.encode (q : Values) : GoString :=
  let sorted := q.mergeSort fun x y => decide (x.1 ≤ y.1)
  (lit "&").intercalate <|
    sorted.flatMap fun (key, values) =>
      values.map fun value =>
        escape .queryComponent key ++ lit "=" ++ escape .queryComponent value

/-! ## `url.Parse` -/

/-- The loop of `getscheme`: scans the scheme and splits at the colon. Besides
the error of a missing scheme there is the outcome that there is no scheme. -/
def getschemeFrom (rawUrl : GoString) : Nat → GoString → Option (GoString × GoString)
  | _, [] => some ([], rawUrl)
  | i, c :: s =>
    if isLower c || isUpper c then getschemeFrom rawUrl (i + 1) s
    else if GoString.isDigit c || c ∈ lit "+-." then
      if i = 0 then some ([], rawUrl) else getschemeFrom rawUrl (i + 1) s
    else if c = byte ':' then
      if i = 0 then none else some (rawUrl.take i, s)
    else some ([], rawUrl)

def getscheme (rawUrl : GoString) : Option (GoString × GoString) := getschemeFrom rawUrl 0 rawUrl

def toLower (s : GoString) : GoString := s.map fun c => if isUpper c then c + 32 else c

def hasControlByte (s : GoString) : Bool := s.any fun c => c < 0x20 || c = 0x7F

/-- `URL.setPath` -/
def setPath (u : Url) (p : GoString) : Option Url :=
  (unescape p).map fun path =>
    { u with path, rawPath := if p = escape .path path then [] else p }

/-- The part of `parse` behind the scheme: query, authority and path. -/
def parseRest (net : NetUrl) (scheme rest : GoString) : Option Url :=
  let u : Url := { scheme := toLower scheme }
  let (u, rest) : Url × GoString :=
    if rest.getLast? = some (byte '?') ∧ rest.count (byte '?') = 1 then
      ({ u with forceQuery := true }, rest.dropLast)
    else
      ({ u with rawQuery := (rest.dropWhile (· ≠ byte '?')).drop 1 },
        rest.takeWhile (· ≠ byte '?'))
  if rest.head? ≠ some (byte '/') ∧ u.scheme ≠ [] then some { u with opaquePart := rest }
  else if rest.head? ≠ some (byte '/') ∧ byte ':' ∈ rest.takeWhile (· ≠ byte '/') then none
  else if (u.scheme ≠ [] ∨ !(lit "///").isPrefixOf rest) ∧ (lit "//").isPrefixOf rest then
    match net.parseAuthority ((rest.drop 2).takeWhile (· ≠ byte '/')) with
    | none => none
    | some (user, host) =>
      setPath { u with user, host } ((rest.drop 2).dropWhile (· ≠ byte '/'))
  else setPath u rest

/-- `url.Parse` -/
def parse (net : NetUrl) (rawUrl : GoString) : Option Url :=
  let s := rawUrl.takeWhile (· ≠ byte '#')
  let fragment := (rawUrl.dropWhile (· ≠ byte '#')).drop 1
  if hasControlByte s then none
  else if s = lit "*" then (unescape fragment).map fun fragment => { path := s, fragment }
  else
    match getscheme s with
    | none => none
    | some (scheme, rest) =>
      match parseRest net scheme rest, unescape fragment with
      | some u, some fragment => some { u with fragment }
      | _, _ => none

/-! ## `URL.String` -/

/-- `validEncodedPath` -/
def validEncodedPath (s : GoString) : Bool :=
  s.all fun c => c ∈ lit "!$&'()*+,;=:@[]%" || !shouldEscape .path c

/-- `URL.EscapedPath` -/
def escapedPath (u : Url) : GoString :=
  if u.rawPath ≠ [] ∧ validEncodedPath u.rawPath ∧ unescape u.rawPath = some u.path then u.rawPath
  else if u.path = lit "*" then u.path
  else escape .path u.path

/-- `URL.String` -/
def string (net : NetUrl) (u : Url) : GoString :=
  let front := if u.scheme ≠ [] then u.scheme ++ lit ":" else []
  let middle :=
    if u.opaquePart ≠ [] then u.opaquePart
    else
      let authority :=
        if u.scheme ≠ [] ∨ u.host ≠ [] ∨ u.user.isSome then
          (if u.host ≠ [] ∨ u.path ≠ [] ∨ u.user.isSome then lit "//" else []) ++
            net.printAuthority u.user u.host
        else []
      let path := u.escapedPath
      let slash := if path ≠ [] ∧ path.head? ≠ some (byte '/') ∧ u.host ≠ [] then lit "/" else []
      let dot :=
        if front ++ authority ++ slash = [] ∧ byte ':' ∈ path.takeWhile (· ≠ byte '/') then lit "./"
        else []
      authority ++ slash ++ dot ++ path
  let query := if u.forceQuery ∨ u.rawQuery ≠ [] then lit "?" ++ u.rawQuery else []
  let fragment := if u.fragment ≠ [] then lit "#" ++ escape .fragment u.fragment else []
  front ++ middle ++ query ++ fragment

end Url

/-! ## `path.Clean` and `http.Redirect` -/

/-- One element of a path on the elements before it, the last one first. -/
def cleanElement (rooted : Bool) (done : List GoString) (element : GoString) : List GoString :=
  if element = [] ∨ element = lit "." then done
  else if element = lit ".." then
    match done with
    | [] => if rooted then [] else [element]
    | last :: before => if last = lit ".." then element :: done else before
  else element :: done

/-- `path.Clean` -/
def cleanPath (p : GoString) : GoString :=
  let rooted := p.head? = some (byte '/')
  let elements := ((p.splitOn (byte '/')).foldl (cleanElement rooted) []).reverse
  let cleaned := (if rooted then lit "/" else []) ++ (lit "/").intercalate elements
  if cleaned = [] then lit "." else cleaned

/-- `hexEscapeNonASCII` -/
def hexEscapeNonASCII (s : GoString) : GoString :=
  s.flatMap fun c => if c < 0x80 then [c] else [byte '%', hexChar (c >>> 4), hexChar (c &&& 0x0F)]

/-- The path that `http.Redirect` makes of a target without scheme and host:
made absolute, and cleaned up to the query. -/
def redirectPath (requestPath target : GoString) : GoString :=
  let dir := (requestPath.reverse.dropWhile (· ≠ byte '/')).reverse
  let target :=
    if target.head? = some (byte '/') then target
    else (if requestPath = [] then lit "/" else dir) ++ target
  let p := target.takeWhile (· ≠ byte '?')
  let cleaned := cleanPath p
  let slash :=
    if p.getLast? = some (byte '/') ∧ cleaned.getLast? ≠ some (byte '/') then lit "/" else []
  cleaned ++ slash ++ target.dropWhile (· ≠ byte '?')

/-- The `Location` that `http.Redirect` sends. -/
def redirectLocation (net : NetUrl) (requestPath target : GoString) : GoString :=
  hexEscapeNonASCII <|
    match Url.parse net target with
    | some u => if u.scheme = [] ∧ u.host = [] then redirectPath requestPath target else target
    | none => target

end PadlockCloud
