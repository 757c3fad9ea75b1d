/-!
# Media types

Whether the content type of a message promises JSON: `application/json`, or any subtype of
`application` with the suffix `+json`. Case does not matter and parameters may follow, but the whole
must be a media type.
-/

namespace RecencyCache.Http

/-- A character of a token. -/
def isTokenChar (c : Char) : Bool :=
  c.isAlphanum || "!#$%&'*+-.^_\x60|~".toList.contains c

/-- A character of a quoted parameter. -/
def isQuotableChar (c : Char) : Bool := 0x20 ≤ c.toNat && c.toNat < 0x7F

/-- Where reading stands within the parameters of a media type. -/
inductive ParameterPlace where
  /-- Before a name. -/
  | gap
  | name
  | valueStart
  | value
  | quotedStart
  | quoted
  | afterQuoted
  deriving DecidableEq

namespace ParameterPlace

/-- Reads one character. The first character within quotes may be a quote itself. -/
def step : ParameterPlace → Char → Option ParameterPlace
  | .gap, c => if c = ' ' then some .gap else if isTokenChar c then some .name else none
  | .name, c => if isTokenChar c then some .name else if c = '=' then some .valueStart else none
  | .valueStart, c =>
      if c = '"' then some .quotedStart else if isTokenChar c then some .value else none
  | .value, c => if isTokenChar c then some .value else if c = ';' then some .gap else none
  | .quotedStart, c => if isQuotableChar c then some .quoted else none
  | .quoted, c =>
      if c = '"' then some .afterQuoted else if isQuotableChar c then some .quoted else none
  | .afterQuoted, c =>
      if c = ';' then some .gap else if c = ' ' then some .afterQuoted else none

/-- The parameters may end here. -/
def mayEnd : ParameterPlace → Bool
  | .gap | .valueStart | .value | .afterQuoted => true
  | .name | .quotedStart | .quoted => false

end ParameterPlace

/-- The text after the first semicolon of a media type is a list of parameters. -/
def areParameters (text : List Char) : Bool :=
  (text.foldlM ParameterPlace.step .gap).any (·.mayEnd)

/-- The subtype without its suffix, and the suffix after the last plus sign, if there is one that
does not come first. -/
def splitSuffix (subtype : List Char) : List Char × Option (List Char) :=
  let suffix := (subtype.reverse.takeWhile (· ≠ '+')).reverse
  let stem := subtype.take (subtype.length - suffix.length - 1)
  if stem = [] then (subtype, none) else (stem, some suffix)

/-- The content type promises JSON. -/
def promisesJson (contentType : String) : Bool :=
  let text := contentType.toList.map Char.toLower
  let type := text.takeWhile (· ≠ '/')
  let afterType := text.dropWhile (· ≠ '/')
  let subtype := (afterType.drop 1).takeWhile (· ≠ ';')
  let parameters := ((afterType.drop 1).dropWhile (· ≠ ';')).drop 1
  let (stem, suffix) := splitSuffix subtype
  type = "application".toList && subtype.all isTokenChar && areParameters parameters
    && (stem = "json".toList || suffix = some "json".toList)

end RecencyCache.Http
