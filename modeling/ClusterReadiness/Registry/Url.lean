import ClusterReadiness.Text.Quoted

/-!
Addresses of health probes. A relative path is put under the path of the base address; an absolute
address stands for itself. Scheme and host are in lower case, the usual port of a scheme is left
out, steps to the same or the parent directory are taken out, and characters that may not stand in
an address are written as percent escapes of their UTF-8 bytes. International host names are left as
they are.
-/

namespace ClusterReadiness

structure Url where
  scheme : String
  authority : String
  path : String
  query : Option String
  fragment : Option String
deriving DecidableEq

namespace Url

/-- The characters before the first one that `stop` accepts, and the rest from there on. -/
def splitAtFirst (stop : Char → Bool) (cs : List Char) : List Char × List Char :=
  (cs.takeWhile fun c => !stop c, cs.dropWhile fun c => !stop c)

def isSchemeStart (c : Char) : Bool := c.isAlpha

def isSchemeChar (c : Char) : Bool := c.isAlphanum || c == '+' || c == '.' || c == '-'

/-- A scheme ends at a colon; without one the whole text is the rest. -/
def splitScheme (cs : List Char) : List Char × List Char :=
  match splitAtFirst (fun c => !isSchemeChar c) cs with
  | (scheme, ':' :: rest) =>
    match scheme with
    | [] => ([], rest)
    | first :: _ => if isSchemeStart first then (scheme, rest) else ([], cs)
  | _ => ([], cs)

def splitAuthority : List Char → List Char × List Char
  | '/' :: '/' :: rest => splitAtFirst (fun c => c == '/' || c == '?' || c == '#') rest
  | cs => ([], cs)

/-- What follows the mark, if the text starts with it, up to the next stop. -/
def splitMarked (mark : Char) (stop : Char → Bool) : List Char → Option (List Char) × List Char
  | [] => (none, [])
  | c :: rest =>
    if c = mark then
      let (part, rest) := splitAtFirst stop rest
      (some part, rest)
    else (none, c :: rest)

def isHex (c : Char) : Bool :=
  c.isDigit || ('a' ≤ c && c ≤ 'f') || ('A' ≤ c && c ≤ 'F')

def percentByte (b : UInt8) : List Char :=
  '%' :: (Text.hexDigits 2 b.toNat).map Char.toUpper

/-- An escape that is already there is kept. -/
def escape (safe : Char → Bool) : List Char → List Char
  | [] => []
  | c :: rest =>
    let isEscape := c == '%' && (rest.take 2).length == 2 && (rest.take 2).all isHex
    if isEscape || safe c then c :: escape safe rest
    else (String.singleton c).toUTF8.toList.flatMap percentByte ++ escape safe rest

def isPlain (c : Char) : Bool := 0x20 < c.toNat && c.toNat < 0x7F

def pathSafe (c : Char) : Bool := isPlain c && !"\"#<>?`\x7b\x7d%".toList.contains c

def querySafe (c : Char) : Bool := isPlain c && !"\"#<>%".toList.contains c

def fragmentSafe (c : Char) : Bool := isPlain c && !"\"<>`%".toList.contains c

/-- Components of a path without steps to the same or the parent directory, last one first. -/
def walk : List (List Char) → List (List Char) → List (List Char)
  | reached, [] => reached
  | reached, component :: rest =>
    if component = ['.'] then walk reached rest
    else if component = ['.', '.'] then
      if reached = [] || reached = [[]] then walk reached rest else walk reached.tail rest
    else walk (component :: reached) rest

def components : List Char → List (List Char)
  | [] => [[]]
  | c :: rest =>
    match components rest with
    | [] => [[c]]
    | first :: more => if c = '/' then [] :: first :: more else (c :: first) :: more

def joinComponents (parts : List (List Char)) : List Char := ['/'].intercalate parts

def normalizePath (path : List Char) : List Char :=
  let parts := components path
  if parts.contains ['.'] || parts.contains ['.', '.'] then
    joinComponents (walk [] parts).reverse
  else path

def usualPorts : List (String × Nat) :=
  [("ftp", 21), ("http", 80), ("https", 443), ("ws", 80), ("wss", 443)]

/-- Host and port, without user information, which ends at the last at sign. -/
def splitHost (authority : List Char) : List Char × List Char × List Char :=
  let reversed := authority.reverse
  let (host, user) := splitAtFirst (· == '@') reversed
  let user := match user with
    | [] => []
    | _ :: rest => rest.reverse ++ ['@']
  let host := host.reverse
  match host with
  | '[' :: _ =>
    let (inside, rest) := splitAtFirst (· == ']') host
    (user, inside ++ rest.take 1, rest.drop 1)
  | _ =>
    let (name, port) := splitAtFirst (· == ':') host
    (user, name, port)

def normalizeAuthority (scheme : String) (authority : List Char) : Except String String := do
  let (user, host, port) := splitHost authority
  let host := host.map Char.toLower
  match port with
  | [] | [_] => return String.ofList (user ++ host)
  | _ :: digits =>
    if digits.all Char.isDigit then
      let number := digits.foldl (fun n d => 10 * n + (d.toNat - 48)) 0
      if usualPorts.lookup scheme == some number then return String.ofList (user ++ host)
      else return String.ofList (user ++ host ++ ':' :: (toString number).toList)
    else throw ("Invalid port: " ++ Text.quoted (String.ofList digits))

def isControl (c : Char) : Bool := c.toNat < 0x20 || c.toNat == 0x7F

/-- The first control character of the text, with its position. -/
def firstControl : List Char → Nat → Option (Char × Nat)
  | [], _ => none
  | c :: rest, position => if isControl c then some (c, position) else firstControl rest (position + 1)

def checkPath (scheme authority : String) (path : List Char) : Except String Unit :=
  match path with
  | '/' :: '/' :: _ =>
    if scheme = "" && authority = "" then
      .error "Relative URLs cannot have a path starting with '//'"
    else .ok ()
  | ':' :: _ =>
    if authority ≠ "" then .error "For absolute URLs, path must be empty or begin with '/'"
    else if scheme = "" then .error "Relative URLs cannot have a path starting with ':'"
    else .ok ()
  | [] | '/' :: _ => .ok ()
  | _ =>
    if authority ≠ "" then .error "For absolute URLs, path must be empty or begin with '/'"
    else .ok ()

def maxLength : Nat := 65536

def parse (text : String) : Except String Url := do
  if maxLength < text.length then throw "URL too long"
  if let some (c, position) := firstControl text.toList 0 then
    throw ("Invalid non-printable ASCII character in URL, " ++ Text.quoted (String.singleton c) ++
      " at position " ++ toString position ++ ".")
  let (scheme, rest) := splitScheme text.toList
  let (authority, rest) := splitAuthority rest
  let (path, rest) := splitAtFirst (fun c => c == '?' || c == '#') rest
  let (query, rest) := splitMarked '?' (· == '#') rest
  let (fragment, _) := splitMarked '#' (fun _ => false) rest
  let scheme := String.ofList (scheme.map Char.toLower)
  let authority ← normalizeAuthority scheme authority
  checkPath scheme authority path
  let path := if scheme ≠ "" || authority ≠ "" then normalizePath path else path
  return {
    scheme, authority
    path := String.ofList (escape pathSafe path)
    query := query.map fun q => String.ofList (escape querySafe q)
    fragment := fragment.map fun f => String.ofList (escape fragmentSafe f) }

def isAbsolute (url : Url) : Bool := url.scheme ≠ "" && url.authority ≠ ""

/-- The empty path is the root. -/
def rootedPath (url : Url) : String := if url.path = "" then "/" else url.path

def text (url : Url) : String :=
  (if url.scheme = "" then "" else url.scheme ++ ":") ++
    (if url.authority = "" then "" else "//" ++ url.authority) ++ url.rootedPath ++
    (url.query.map ("?" ++ ·)).getD "" ++ (url.fragment.map ("#" ++ ·)).getD ""

/-- The path of a base address ends with a slash. -/
def basePath (url : Url) : String :=
  let cs := url.rootedPath.toList
  if cs.getLast? = some '/' then url.rootedPath else url.rootedPath ++ "/"

/-- The address under a base address. -/
def under (base url : Url) : Url :=
  if url.isAbsolute then url
  else
    let path := String.ofList (url.path.toList.dropWhile (· == '/'))
    { base with path := base.basePath ++ path, query := url.query }

end Url

end ClusterReadiness
