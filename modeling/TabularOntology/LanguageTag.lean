import TabularOntology.Text.Cut

/-! Language tags. A tag is put into small letters and then checked: it is one of the
grandfathered tags, or private altogether, or a language followed by extended
languages, a script, a region, variants, extensions and private subtags in this
order. The subtags are read from left to right in a state that says which of them
may still come. -/

namespace TabularOntology.LanguageTag

/-- What is wrong with a language tag. -/
inductive Fault
  | emptyExtension
  | emptyPrivateUse
  | invalidSubtag
  | invalidLanguage
  | tooLong
  | emptySubtag
  | tooManyExtlangs
  deriving DecidableEq, Repr

def Fault.message : Fault → String
  | .emptyExtension => "If an extension subtag is present, it must not be empty"
  | .emptyPrivateUse => "If the `x` subtag is present, it must not be empty"
  | .invalidSubtag => "A subtag fails to parse, it does not match any other subtags"
  | .invalidLanguage => "The given language subtag is invalid"
  | .tooLong => "A subtag may be eight characters in length at maximum"
  | .emptySubtag => "A subtag should not be empty"
  | .tooManyExtlangs => "At maximum three extlangs are allowed"

def grandfathered : List String :=
  ["art-lojban", "cel-gaulish", "en-gb-oed", "i-ami", "i-bnn", "i-default", "i-enochian", "i-hak",
    "i-klingon", "i-lux", "i-mingo", "i-navajo", "i-pwn", "i-tao", "i-tay", "i-tsu", "no-bok",
    "no-nyn", "sgn-be-fr", "sgn-be-nl", "sgn-ch-de", "zh-guoyu", "zh-hakka", "zh-min", "zh-min-nan",
    "zh-xiang"]

/-- How far a tag has been read. -/
inductive State
  | start
  | afterLanguage
  | afterExtlang
  | afterScript
  | afterRegion
  /-- In an extension; `pending` until its first subtag. -/
  | extension (pending : Bool)
  /-- In the private subtags; `pending` until the first one. -/
  | privateUse (pending : Bool)
  deriving DecidableEq, Repr

def isLetters (cs : List Char) : Bool := cs.all Char.isAlpha

def isAlphanumeric (cs : List Char) : Bool := cs.all Char.isAlphanum

/-- The length in UTF-8. -/
def byteLength (cs : List Char) : Nat := cs.foldr (fun c n => c.utf8Size + n) 0

/-- A subtag that can be a variant: five letters or digits, or four from a digit on. -/
def isVariant (cs : List Char) : Bool :=
  match cs with
  | [] => false
  | c :: _ => isAlphanumeric cs && ((c.isAlpha && 5 ≤ cs.length) || (c.isDigit && 4 ≤ cs.length))

/-- The state after one more subtag, and the number of extended languages so far. -/
def step (s : State) (extlangs : Nat) (cs : List Char) : Except Fault (State × Nat) :=
  let n := cs.length
  if cs.isEmpty then .error .emptySubtag
  else if 8 < byteLength cs then .error .tooLong
  else
    match s with
    | .start =>
      if n < 2 || !isLetters cs then .error .invalidLanguage
      else .ok (if n < 4 then .afterLanguage else .afterExtlang, extlangs)
    | .privateUse _ =>
      if isAlphanumeric cs then .ok (.privateUse false, extlangs) else .error .invalidSubtag
    | _ =>
      if n == 1 && isAlphanumeric cs then
        if s == .extension true then .error .emptyExtension
        else if cs == ['x'] then .ok (.privateUse true, extlangs)
        else .ok (.extension true, extlangs)
      else
        match s with
        | .extension _ =>
          if isAlphanumeric cs then .ok (.extension false, extlangs) else .error .invalidSubtag
        | _ =>
          if s == .afterLanguage && n == 3 && isLetters cs then
            if extlangs == 3 then .error .tooManyExtlangs else .ok (.afterLanguage, extlangs + 1)
          else if (s == .afterLanguage || s == .afterExtlang) && n == 4 && isLetters cs then
            .ok (.afterScript, extlangs)
          else if s != .afterRegion &&
              ((n == 2 && isLetters cs) || (n == 3 && cs.all Char.isDigit)) then
            .ok (.afterRegion, extlangs)
          else if isVariant cs then .ok (.afterRegion, extlangs)
          else .error .invalidSubtag

/-- Reads the remaining subtags. -/
def check (s : State) (extlangs : Nat) : List (List Char) → Except Fault Unit
  | [] =>
    match s with
    | .extension true => .error .emptyExtension
    | .privateUse true => .error .emptyPrivateUse
    | _ => .ok ()
  | cs :: rest =>
    match step s extlangs cs with
    | .error fault => .error fault
    | .ok (s, extlangs) => check s extlangs rest

/-- Reads the subtags of a private tag. -/
def checkPrivate : List (List Char) → Except Fault Unit
  | [] => .ok ()
  | cs :: rest =>
    if cs.isEmpty then .error .emptySubtag
    else if 8 < byteLength cs then .error .tooLong
    else if !isAlphanumeric cs then .error .invalidSubtag
    else checkPrivate rest

/-- The tag in small letters, if it is well formed. -/
def ofString (s : String) : Except Fault String := do
  let tag := Text.lowerAscii s
  if grandfathered.contains tag then .ok tag
  else
    match Text.stripStart? "x-" tag with
    | some "" => .error .emptyPrivateUse
    | some rest =>
      checkPrivate (Text.pieces (· == '-') rest.toList)
      .ok tag
    | none =>
      check .start 0 (Text.pieces (· == '-') tag.toList)
      .ok tag

end TabularOntology.LanguageTag
