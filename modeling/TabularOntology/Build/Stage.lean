/-! The stages of a build, in their order, and the two ways in which it ends. -/

namespace TabularOntology

inductive Stage
  | idle
  | loading
  | compiling
  | importResolution
  | reasoning
  | merging
  | writing
  | done
  | failed
  deriving DecidableEq, Repr

namespace Stage

def name : Stage → String
  | .idle => "idle"
  | .loading => "loading"
  | .compiling => "compiling"
  | .importResolution => "import resolution"
  | .reasoning => "reasoning"
  | .merging => "merging"
  | .writing => "writing"
  | .done => "done"
  | .failed => "failed"

/-- The stages at which a build ends. -/
def isTerminal : Stage → Bool
  | .done | .failed => true
  | _ => false

end Stage

end TabularOntology
