import TabularOntology.Iri.Basic

/-! The syntax of IRIs and the resolution of references against a base. A text is
read once from left to right, and the first fault met is the answer. Nothing is
normalised except that the path of a relative reference loses its dot segments
while it is joined to the base; this happens in step with the reading, because a
path that would come to start with two slashes is a fault of its own. -/

namespace TabularOntology

/-- What is wrong with the text of an IRI. -/
inductive Iri.Fault
  | noScheme
  | codePoint (c : Char)
  /-- A percent sign and up to two characters after it. -/
  | percentEncoding (text : String)
  | portCharacter (c : Char)
  | hostCharacter (c : Char)
  | hostAddress
  | doubleSlash
  deriving DecidableEq, Repr

def Iri.Fault.message : Iri.Fault → String
  | .noScheme => "No scheme found in an absolute IRI"
  | .codePoint c => s!"Invalid IRI code point '{c}'"
  | .percentEncoding text => s!"Invalid IRI percent encoding '{text}'"
  | .portCharacter c => s!"Invalid character '{c}'"
  | .hostCharacter c => s!"Invalid character '{c}' in host"
  | .hostAddress => "Invalid host IP (invalid IPv6 address syntax)"
  | .doubleSlash => "An IRI path is not allowed to start with //"

/-- An absolute IRI in its parts, without the characters that separate them. -/
structure Iri.Parts where
  scheme : List Char
  authority : Option (List Char)
  path : List Char
  query : Option (List Char)
  fragment : Option (List Char)
  deriving DecidableEq, Repr

namespace Iri

/-! ### Characters -/

def isHexDigit (c : Char) : Bool :=
  c.isDigit || ('a' ≤ c && c ≤ 'f') || ('A' ≤ c && c ≤ 'F')

/-- ASCII letters, digits and the marks that may stand anywhere. -/
def isAsciiPart (c : Char) : Bool :=
  c.isAlphanum || "!$&'()*+,-.;=_~".toList.contains c

/-- The characters that may stand in every part, non-ASCII ones included. -/
def isPart (c : Char) : Bool :=
  let n := c.toNat
  isAsciiPart c || (0xA0 ≤ n && n ≤ 0xD7FF) || (0xF900 ≤ n && n ≤ 0xFDCF) ||
    (0xFDF0 ≤ n && n ≤ 0xFFEF) ||
    (0x10000 ≤ n && n ≤ 0xDFFFD && n % 0x10000 ≤ 0xFFFD) || (0xE1000 ≤ n && n ≤ 0xEFFFD)

/-- Private characters, which only a query may hold. -/
def isPrivate (c : Char) : Bool :=
  let n := c.toNat
  (0xE000 ≤ n && n ≤ 0xF8FF) || (0xF0000 ≤ n && n ≤ 0xFFFFD) || (0x100000 ≤ n && n ≤ 0x10FFFD)

def isPathChar (c : Char) : Bool := isPart c || c == ':' || c == '@' || c == '/'

def isFragmentChar (c : Char) : Bool := isPathChar c || c == '?'

def isQueryChar (c : Char) : Bool := isFragmentChar c || isPrivate c

def endsPath (c : Char) : Bool := c == '?' || c == '#'

def endsHost (c : Char) : Bool := c == '/' || endsPath c

/-! ### Addresses in brackets -/

/-- A decimal number from 0 to 255 without a leading zero. -/
def isOctet (cs : List Char) : Bool :=
  !cs.isEmpty && cs.length ≤ 3 && cs.all Char.isDigit &&
    (cs.length == 1 || cs.head? != some '0') &&
    cs.foldl (fun n c => 10 * n + (c.toNat - '0'.toNat)) 0 ≤ 255

/-- The pieces between the occurrences of a character. -/
def splitAt (d : Char) : List Char → List (List Char)
  | [] => [[]]
  | c :: cs => if c = d then [] :: splitAt d cs else (splitAt d cs).modifyHead (c :: ·)

/-- Four octets with dots between them. -/
def isDottedQuad (cs : List Char) : Bool :=
  (splitAt '.' cs).length == 4 && (splitAt '.' cs).all isOctet

def isHexGroup (cs : List Char) : Bool :=
  !cs.isEmpty && cs.length ≤ 4 && cs.all isHexDigit

/-- The number of groups that are written with colons between them; a dotted quad in
the last place counts as two where it is allowed. -/
def groupCount? (quad : Bool) (cs : List Char) : Option Nat :=
  if cs.isEmpty then some 0
  else
    let groups := splitAt ':' cs
    let last := groups.getLast?.getD []
    if !groups.dropLast.all isHexGroup then none
    else if isHexGroup last then some groups.length
    else if quad && isDottedQuad last then some (groups.length + 1)
    else none

/-- What stands before and after the first two colons in a row. -/
def cutDoubleColon? : List Char → Option (List Char × List Char)
  | ':' :: ':' :: cs => some ([], cs)
  | c :: cs => (cutDoubleColon? cs).map fun (l, r) => (c :: l, r)
  | [] => none

/-- Eight groups, or fewer around two colons that stand for at least one. -/
def isAddress (cs : List Char) : Bool :=
  match cutDoubleColon? cs with
  | none => groupCount? true cs == some 8
  | some (l, r) =>
    match groupCount? false l, groupCount? true r with
    | some m, some n => m + n ≤ 7
    | _, _ => false

/-- Checks an address of a later version from behind its `v`: a number, a point and at least one
more character. A point without a number puts the fault on the character after it, and an address
that ends too early puts it on the closing bracket. -/
def checkFutureAddress (cs : List Char) : Except Fault Unit :=
  match cs.dropWhile isHexDigit with
  | [] | ['.'] => .error (.hostCharacter ']')
  | '.' :: c :: rest =>
    if (cs.takeWhile isHexDigit).isEmpty then .error (.hostCharacter c)
    else match (c :: rest).find? fun c => !(isAsciiPart c || c == ':') with
      | some c => .error (.hostCharacter c)
      | none => .ok ()
  | c :: _ => .error (.hostCharacter c)

def checkBracketed (cs : List Char) : Except Fault Unit :=
  match cs with
  | 'v' :: cs | 'V' :: cs => checkFutureAddress cs
  | _ => if isAddress cs then .ok () else .error .hostAddress

/-! ### Reading the parts -/

/-- Reads characters that `p` accepts, percent-encoded ones included, up to one that
`stop` accepts. -/
def run (p stop : Char → Bool) : List Char → Except Fault (List Char × List Char)
  | [] => .ok ([], [])
  | '%' :: h :: l :: cs =>
    if isHexDigit h && isHexDigit l then
      (run p stop cs).map fun (s, rest) => ('%' :: h :: l :: s, rest)
    else .error (.percentEncoding (String.ofList ['%', h, l]))
  | '%' :: cs => .error (.percentEncoding (String.ofList ('%' :: cs)))
  | c :: cs =>
    if stop c then .ok ([], c :: cs)
    else if p c then (run p stop cs).map fun (s, rest) => (c :: s, rest)
    else .error (.codePoint c)

/-- Reads the digits of a port. -/
def port : List Char → Except Fault (List Char × List Char)
  | [] => .ok ([], [])
  | c :: cs =>
    if endsHost c then .ok ([], c :: cs)
    else if c.isDigit then (port cs).map fun (s, rest) => (c :: s, rest)
    else .error (.portCharacter c)

/-- Reads a host and its port. -/
def host (cs : List Char) : Except Fault (List Char × List Char) :=
  match cs with
  | '[' :: cs =>
    let content := cs.takeWhile (· != ']')
    match cs.dropWhile (· != ']') with
    | [] => .error (.hostCharacter '[')
    | _ :: rest => do
      checkBracketed content
      let written := '[' :: content ++ [']']
      match rest with
      | [] => .ok (written, [])
      | ':' :: rest => (port rest).map fun (s, rest) => (written ++ ':' :: s, rest)
      | c :: rest => if endsHost c then .ok (written, c :: rest) else .error (.hostCharacter c)
  | _ => do
    let (name, rest) ← run isPart (fun c => c == ':' || endsHost c) cs
    match rest with
    | ':' :: rest => (port rest).map fun (s, rest) => (name ++ ':' :: s, rest)
    | _ => .ok (name, rest)

/-- Reads what follows two slashes: an optional user, a host and a port. -/
def authority (cs : List Char) : Except Fault (List Char × List Char) := do
  let (user, rest) ← run (fun c => isPart c || c == ':')
    (fun c => c == '@' || c == '[' || endsHost c) cs
  match rest with
  | '@' :: rest => (host rest).map fun (s, rest) => (user ++ '@' :: s, rest)
  | _ => host cs

/-- Reads a query and a fragment, each after its mark. -/
def queryAndFragment (cs : List Char) :
    Except Fault (Option (List Char) × Option (List Char)) := do
  let (query, rest) ← match cs with
    | '?' :: cs => (run isQueryChar (· == '#') cs).map fun (s, rest) => (some s, rest)
    | _ => .ok (none, cs)
  match rest with
  | '#' :: cs => (run isFragmentChar (fun _ => false) cs).map fun (s, _) => (query, some s)
  | _ => .ok (query, none)

/-- The scheme that a text starts with, and what follows its colon. -/
def scheme? (cs : List Char) : Option (List Char × List Char) :=
  let isSchemeChar (c : Char) := c.isAlphanum || c == '+' || c == '-' || c == '.'
  match cs.head?, cs.dropWhile isSchemeChar with
  | some c, ':' :: rest => if c.isAlpha then some (cs.takeWhile isSchemeChar, rest) else none
  | _, _ => none

/-- Reads what follows the scheme and a possible authority. -/
def afterAuthority (scheme : List Char) (authority : Option (List Char)) (cs : List Char) :
    Except Fault Parts := do
  let (path, rest) ← run isPathChar endsPath cs
  let (query, fragment) ← queryAndFragment rest
  .ok ⟨scheme, authority, path, query, fragment⟩

/-- Reads what follows a scheme. -/
def afterScheme (scheme cs : List Char) : Except Fault Parts :=
  match cs with
  | '/' :: '/' :: cs => do
    let (name, rest) ← authority cs
    afterAuthority scheme (some name) rest
  | _ => afterAuthority scheme none cs

/-- Reads a path whose first segment has no colon, and what follows it. -/
def colonFreePath (cs : List Char) : Except Fault Unit := do
  let (_, rest) ← run (fun c => isPart c || c == '@') endsHost cs
  let _ ← afterAuthority [] none rest

/-- Reads an absolute IRI. A relative reference is faulty in any case, but a fault of
its characters comes first. -/
def parts (cs : List Char) : Except Fault Parts :=
  match scheme? cs with
  | some (scheme, rest) => afterScheme scheme rest
  | none => do
    match cs with
    | ':' :: _ => .error .noScheme
    | '/' :: _ => let _ ← afterScheme [] cs
    | _ => colonFreePath cs
    .error .noScheme

/-! ### Resolution -/

/-- Drops the dot segment at the end of a path that is written backwards. Two dots take
the segment before them along; where none is left, a path below an authority keeps a slash. -/
def dropDots (below : Bool) : List Char → List Char
  | '.' :: '.' :: '/' :: written =>
    match written.dropWhile (· != '/') with
    | [] => if below then ['/'] else []
    | written => written
  | '.' :: '/' :: written => '/' :: written
  | ['.'] | ['.', '.'] => []
  | written => written

/-- Drops a dot segment at the end and refuses two slashes at the start of a path that is
not below an authority. The path is written backwards. -/
def settle (below : Bool) (written : List Char) : Except Fault (List Char) :=
  let written := dropDots below written
  if !below && ['/', '/'].isPrefixOf written.reverse then .error .doubleSlash else .ok written

/-- Reads a relative path on from what is written backwards; `colons` says whether the
current segment may hold a colon. -/
def relativePath (below : Bool) (colons : Bool) (written : List Char) :
    List Char → Except Fault (List Char × List Char)
  | [] => (settle below written).map fun w => (w.reverse, [])
  | '%' :: h :: l :: cs =>
    if isHexDigit h && isHexDigit l then relativePath below colons (l :: h :: '%' :: written) cs
    else .error (.percentEncoding (String.ofList ['%', h, l]))
  | '%' :: cs => .error (.percentEncoding (String.ofList ('%' :: cs)))
  | '/' :: cs =>
    if dropDots below written = written then relativePath below true ('/' :: written) cs
    else
      match settle below written with
      | .error e => .error e
      | .ok written => relativePath below true written cs
  | c :: cs =>
    if endsPath c then (settle below written).map fun w => (w.reverse, c :: cs)
    else if isPart c || c == '@' || (colons && c == ':') then
      relativePath below colons (c :: written) cs
    else .error (.codePoint c)

/-- The directory of a base path, written backwards. -/
def directory (base : Parts) : List Char :=
  match base.path.reverse.dropWhile (· != '/') with
  | [] => if base.authority.isSome then ['/'] else []
  | written => written

/-- Resolves a reference against a base. -/
def Parts.resolve (base : Parts) (reference : List Char) : Except Fault Parts :=
  let join (start : List Char) (colons : Bool) (cs : List Char) := do
    let (path, rest) ← relativePath base.authority.isSome colons start cs
    let (query, fragment) ← queryAndFragment rest
    .ok { base with path, query, fragment }
  match scheme? reference with
  | some (scheme, rest) => afterScheme scheme rest
  | none =>
    match reference with
    | [] => .ok { base with fragment := none }
    | ':' :: _ => .error .noScheme
    | '/' :: '/' :: _ => afterScheme base.scheme reference
    | '/' :: cs => join ['/'] true cs
    | '?' :: _ => do
      let (query, fragment) ← queryAndFragment reference
      .ok { base with query, fragment }
    | '#' :: _ => do
      let (_, fragment) ← queryAndFragment reference
      .ok { base with fragment }
    | _ => join (directory base) false reference

/-- The IRI that the parts make up. -/
def Parts.toIri (p : Parts) : Iri :=
  let mark (c : Char) : Option (List Char) → List Char
    | none => []
    | some s => c :: s
  let authority := match p.authority with
    | none => []
    | some s => '/' :: '/' :: s
  ⟨String.ofList
    (p.scheme ++ ':' :: authority ++ p.path ++ mark '?' p.query ++ mark '#' p.fragment)⟩

/-- The absolute IRI that a text is. -/
def ofString (s : String) : Except Fault Iri := (parts s.toList).map fun _ => ⟨s⟩

end Iri

end TabularOntology
