import Pylyskom.Strings.Codecs
import Pylyskom.Collections.Dict
import Pylyskom.Errors

/-!
# Content types

`mimeparse.parse_mime_type` and the functions of `utils.py` around it.
-/

namespace Pylyskom

/-- `c.isspace()` -/
def isSpace (c : Char) : Bool :=
  c.toNat ∈ [0x20, 0x85, 0xa0, 0x1680, 0x2028, 0x2029, 0x202f, 0x205f, 0x3000] ||
    (0x09 ≤ c.toNat && c.toNat ≤ 0x0d) || (0x1c ≤ c.toNat && c.toNat ≤ 0x1f) ||
    (0x2000 ≤ c.toNat && c.toNat ≤ 0x200a)

/-- `s.strip()` -/
def strip (s : Str) : Str := ((s.dropWhile isSpace).reverse.dropWhile isSpace).reverse

/-- `s.split(sep)` for a separator of one character. -/
def split (sep : Char) : Str → List Str
  | [] => [[]]
  | c :: s =>
    if c = sep then [] :: split sep s
    else match split sep s with
      | part :: parts => (c :: part) :: parts
      | [] => [[c]]

/-- `s.split(sep, 1)`: the part before the first separator and, if there is one, the part
after it. -/
def splitOnce (sep : Char) (s : Str) : Str × Option Str :=
  match s.span (· ≠ sep) with
  | (part, []) => (part, none)
  | (part, _ :: rest) => (part, some rest)

/-- A mime type: type, subtype and parameters. -/
structure MimeType where
  type : Str
  subtype : Str
  params : Dict Str Str
  deriving DecidableEq

/-- Carves up a mime-type into its type, subtype and parameters. A parameter without a
value makes a tuple of length 1, which `dict` does not accept. -/
def parseMimeType (mimeType : Str) : Except Exn MimeType :=
  match split ';' mimeType with
  | [] => .error (.builtinError .valueError)
  | fullType :: parts => do
    let params ← parts.mapM fun param =>
      match splitOnce '=' param with
      | (k, some v) => .ok (strip k, strip v)
      | (_, none) => .error (.builtinError .valueError)
    -- Java URLConnection class sends an Accept header that includes a single '*'.
    let fullType := if strip fullType = ['*'] then ['*', '/', '*'] else strip fullType
    match split '/' fullType with
    | [type, subtype] =>
      return ⟨strip type, strip subtype, params.foldl (fun d p => d.set p.1 p.2) ∅⟩
    | _ => .error (.builtinError .valueError)

/-- The mime type without its charset, and the charset. -/
def parseContentType (contenttype : Str) : Except Exn (MimeType × Option Str) :=
  match parseMimeType contenttype with
  | .error _ => .error (.error ("Failed to parse mime type '".toList ++ contenttype ++ ['\'']))
  | .ok mimeType =>
    let mimeType :=
      if mimeType.type = "x-kom".toList ∧ mimeType.subtype = "text".toList then
        { mimeType with type := "text".toList, subtype := "x-kom-basic".toList }
      else mimeType
    -- Remove charset from mime_type, if we have it
    let encoding := mimeType.params.get? "charset".toList
    let mimeType := { mimeType with params := mimeType.params.erase "charset".toList }
    .ok (mimeType, if encoding = some "x-ctext".toList then some "latin1".toList else encoding)

def mimeTypeTupleToStr (mimeType : MimeType) : Str :=
  let params := mimeType.params.items.map fun p => p.1 ++ ['='] ++ p.2
  let t := mimeType.type ++ ['/'] ++ mimeType.subtype
  [';'].intercalate (t :: params)

example : parseContentType "text/plain; charset=utf-8 ;name=x=y".toList =
    .ok (⟨"text".toList, "plain".toList, ⟨[("name".toList, "x=y".toList)], by decide⟩⟩,
      some "utf-8".toList) := by decide

/-- The codecs of the Python installation: what `text.decode(encoding)` returns or raises. -/
abbrev Codecs := (encoding : Str) → (text : List UInt8) → Except Exn Str

/-- `backup_encoding` is latin-1, as in all calls. -/
def decodeText (codecs : Codecs) (text : List UInt8) (encoding : Option Str) : Except Exn Str :=
  match encoding with
  | none => .ok (latin1Decode text)
  | some encoding =>
    match codecs encoding text with
    | .ok decodedText => .ok decodedText
    | .error (.builtinError .lookupError) => .ok (latin1Decode text)
    | .error (.builtinError .unicodeDecodeError) => .ok (latin1Decode text)
    | .error e => .error e

end Pylyskom
