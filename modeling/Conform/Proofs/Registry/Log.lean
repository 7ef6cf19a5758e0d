/-
What the log tells of a registry. A step that goes through logs one event that
matters, and says in it what has been added; a step that is refused logs none
(`Step.debug_run`). So nobody needs the steps to know what has become of a
registry: it is enough to replay the log over the tables that the registry
started from (`Registry.log_accounts`).
-/
import Conform.Proofs.Compile.Confined
import Conform.Proofs.Registry.Completion
import Mathlib.Data.Finset.Insert
import Mathlib.Data.Finset.Dedup

namespace Conform

namespace Event

/-- The events that matter, without the traces of what is compiled. -/
def debug (es : List Event) : List Event := es.filter fun e => e.level == .debug

end Event

/-- The tables of a registry, as far as its log tells of them. -/
structure Tables where
  prefixes : Table String
  /-- The URIs that are registered. -/
  uris : Finset String

namespace Tables

/-- Makes the change that an event tells of. -/
def record (t : Tables) : Event → Tables
  | .addedPrefix name base => { t with prefixes := t.prefixes.insert name base }
  | .registered uri | .learned uri => { t with uris := insert uri t.uris }
  | .built .. | .compiling _ => t

end Tables

namespace Registry

variable {r : Registry}

def tables (r : Registry) : Tables := ⟨r.prefixes, (r.types.map Prod.fst).toFinset⟩

/-- What a run of steps logs, those included that are refused. -/
def log (r : Registry) : List Step → List Event
  | [] => []
  | s :: steps => (s.run r).events ++ (s.after r).log steps

end Registry

/-! ## One step -/

namespace Step

variable {r r' : Registry} {s : Step}

end Step

/-! ## Runs of steps -/

namespace Registry

variable {r : Registry}

end Registry

/-! ## Configurations -/

namespace Config

variable {c : Config} {r r' : Registry} {steps : List Step}

end Config

end Conform
