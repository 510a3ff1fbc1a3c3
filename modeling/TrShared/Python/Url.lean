import TrShared.Python.Text

/-!
# TrShared.Python.Url

`urlsplit`, `urlparse` and `urlunparse` of Python 3.13's `urllib.parse`, for a text. A `ValueError` is
`none`.

`UrlLib` holds the two checks of other modules: `unicodedata.normalize("NFKC", s)`, and whether
`_check_bracketed_host` accepts the host between the brackets.
-/

namespace TrShared
namespace Python

structure UrlLib where
  nfkc : Text → Text
  bracketedHost : Text → Bool

structure SplitResult where
  scheme : Text
  netloc : Text
  path : Text
  query : Text
  fragment : Text
  deriving DecidableEq

structure ParseResult extends SplitResult where
  params : Text
  deriving DecidableEq

/-- `url[0].isascii() and url[0].isalpha()`. -/
def isAsciiAlpha (c : CodePoint) : Bool :=
  decide ((65 ≤ c.val ∧ c.val ≤ 90) ∨ (97 ≤ c.val ∧ c.val ≤ 122))

/-- A character of `scheme_chars`. -/
def isSchemeChar (c : CodePoint) : Bool :=
  isAsciiAlpha c || decide ((48 ≤ c.val ∧ c.val ≤ 57) ∨ c.val = 43 ∨ c.val = 45 ∨ c.val = 46)

/-- A tab, a line feed or a carriage return: removed everywhere. -/
def isUnsafe (c : CodePoint) : Bool := decide (c.val = 9 ∨ c.val = 10 ∨ c.val = 13)

/-- A C0 control or a space: removed in front. -/
def isC0OrSpace (c : CodePoint) : Bool := decide (c.val ≤ 32)

/-- A character that ends the netloc. -/
def endsNetloc (c : CodePoint) : Bool :=
  decide (c = codePoint '/' ∨ c = codePoint '?' ∨ c = codePoint '#')

/-- The text starts with a scheme and a colon. -/
def hasScheme (url : Text) : Bool :=
  let scheme := (partition (codePoint ':') url).1
  decide (codePoint ':' ∈ url) && (scheme.head?.any isAsciiAlpha) && scheme.all isSchemeChar

/-- The scheme and what follows it. -/
def splitScheme (url : Text) : Text × Text :=
  if hasScheme url then
    (asciiLower (partition (codePoint ':') url).1, (partition (codePoint ':') url).2)
  else ([], url)

/-- `_splitnetloc(url, 2)` behind a `//`. -/
def splitNetloc (url : Text) : Text × Text :=
  if url.take 2 = text "//" then
    ((url.drop 2).takeWhile (fun c => !endsNetloc c), (url.drop 2).dropWhile (fun c => !endsNetloc c))
  else ([], url)

/-- Brackets come in pairs around a host that is accepted. -/
def bracketsFit (lib : UrlLib) (netloc : Text) : Bool :=
  if codePoint '[' ∈ netloc ∧ codePoint ']' ∈ netloc then
    lib.bracketedHost (partition (codePoint ']') (partition (codePoint '[') netloc).2).1
  else !(decide (codePoint '[' ∈ netloc) || decide (codePoint ']' ∈ netloc))

/-- `_checknetloc`: no character turns into a delimiter when normalized. -/
def checkNetloc (lib : UrlLib) (netloc : Text) : Bool :=
  let n := netloc.filter (fun c => !decide (c ∈ text "@:#?"))
  netloc.all (fun c => decide (c.val < 128)) || decide (lib.nfkc n = n) ||
    (lib.nfkc n).all (fun c => !decide (c ∈ text "/?#@:"))

/-- `urlsplit(url)`. -/
def urlsplit (lib : UrlLib) (url : Text) : Option SplitResult :=
  let url := (url.dropWhile isC0OrSpace).filter (fun c => !isUnsafe c)
  let (scheme, url) := splitScheme url
  let (netloc, url) := splitNetloc url
  let (url, fragment) := partition (codePoint '#') url
  let (path, query) := partition (codePoint '?') url
  if bracketsFit lib netloc && checkNetloc lib netloc then
    some ⟨scheme, netloc, path, query, fragment⟩
  else none

/-- `_hostinfo`: the host, and the port, which is empty when there is none. -/
def hostInfo (netloc : Text) : Text × Text :=
  let hostinfo := afterLast (codePoint '@') netloc
  if codePoint '[' ∈ hostinfo then
    let (hostname, port) := partition (codePoint ']') (partition (codePoint '[') hostinfo).2
    (hostname, (partition (codePoint ':') port).2)
  else partition (codePoint ':') hostinfo

/-- `.hostname`; the zone of a scoped address keeps its case. -/
def SplitResult.hostname (r : SplitResult) : Option Text :=
  let hostname := (hostInfo r.netloc).1
  if hostname.isEmpty then none
  else
    let percent := hostname.dropWhile (fun c => !decide (c = codePoint '%'))
    some (asciiLower (hostname.takeWhile (fun c => !decide (c = codePoint '%'))) ++ percent)

def isDigit (c : CodePoint) : Bool := decide (48 ≤ c.val ∧ c.val ≤ 57)

/-- `int(s)` of decimal digits. -/
def toInt (s : Text) : Nat := s.foldl (fun n c => 10 * n + (c.val - 48)) 0

/-- `.port`: `none` for a `ValueError`, `some none` for `None`. -/
def SplitResult.port (r : SplitResult) : Option (Option Nat) :=
  let port := (hostInfo r.netloc).2
  if port.isEmpty then some none
  else if port.all isDigit && decide (toInt port ≤ 65535) then some (some (toInt port))
  else none

/-! ## Parameters of the last path segment -/

def usesParams : List Text :=
  ["", "ftp", "hdl", "prospero", "http", "imap", "https", "shttp", "rtsp", "rtsps", "rtspu", "sip",
    "sips", "mms", "sftp", "tel"].map text

def usesNetloc : List Text :=
  ["", "ftp", "http", "gopher", "nntp", "telnet", "imap", "wais", "file", "mms", "https", "shttp",
    "snews", "prospero", "rtsp", "rtsps", "rtspu", "rsync", "svn", "svn+ssh", "sftp", "nfs", "git",
    "git+ssh", "ws", "wss", "itms-services"].map text

/-- `_splitparams`: at the first `;` behind the last `/`. -/
def splitParams (url : Text) : Text × Text :=
  let last := afterLast (codePoint '/') url
  let (segment, params) := partition (codePoint ';') last
  (url.take (url.length - last.length) ++ segment, params)

def urlparse (lib : UrlLib) (url : Text) : Option ParseResult :=
  match urlsplit lib url with
  | none => none
  | some r =>
    if r.scheme ∈ usesParams ∧ codePoint ';' ∈ r.path then
      let (path, params) := splitParams r.path
      some { r with path := path, params := params }
    else some { r with params := [] }

def urlunsplit (r : SplitResult) : Text :=
  let url := r.path
  let url :=
    if !r.netloc.isEmpty then
      text "//" ++ r.netloc ++
        (if !url.isEmpty && decide (url.take 1 ≠ text "/") then text "/" ++ url else url)
    else if url.take 2 = text "//" then text "//" ++ url
    else if r.scheme ≠ [] ∧ r.scheme ∈ usesNetloc ∧ (url = [] ∨ url.take 1 = text "/") then
      text "//" ++ url
    else url
  let url := if r.scheme.isEmpty then url else r.scheme ++ text ":" ++ url
  let url := if r.query.isEmpty then url else url ++ text "?" ++ r.query
  if r.fragment.isEmpty then url else url ++ text "#" ++ r.fragment

def urlunparse (r : ParseResult) : Text :=
  urlunsplit (if r.params.isEmpty then r.toSplitResult
    else { r.toSplitResult with path := r.path ++ text ";" ++ r.params })

end Python
end TrShared
