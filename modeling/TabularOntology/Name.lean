import TabularOntology.Text.Blank
import TabularOntology.Text.Cut

/-! Names of a fixed choice, as tables and requests write them: kinds of entities,
characteristics of properties, methods of extraction. -/

namespace TabularOntology

/-- The choices that a name can be wrong for. -/
inductive NameCategory
  | entityKind
  | propertyCharacteristic
  | extractionMethod
  | relatedType
  deriving DecidableEq, Repr

def NameCategory.text : NameCategory → String
  | .entityKind => "entity kind"
  | .propertyCharacteristic => "property characteristic"
  | .extractionMethod => "extraction method"
  | .relatedType => "related entity type"

/-- A name that is none of its category, kept as it was written. -/
structure UnknownName where
  category : NameCategory
  name : String
  deriving DecidableEq, Repr

def UnknownName.message (e : UnknownName) : String :=
  s!"unknown {e.category.text} '{e.name}'"

/-- The form in which a name is compared: trimmed, without blanks, underscores and
hyphens, and in small ASCII letters. -/
def foldName (name : String) : String :=
  Text.lowerAscii (String.ofList
    ((Text.trimChars name.toList).filter fun c => !(c == ' ' || c == '_' || c == '-')))

end TabularOntology
