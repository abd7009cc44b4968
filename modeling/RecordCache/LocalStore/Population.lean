import RecordCache.LocalStore

/-!
Populations: fetching a whole class and replacing its snapshot. One caller of a store runs the
population; those who come meanwhile wait for it and share its outcome.
-/

namespace RecordCache

abbrev Population (κ : Type) := Option (List κ)

namespace Population

variable {κ : Type}

/-- A caller comes, with or without a callback: the first one runs the population. -/
def arrive (p : Population κ) (callback : Option κ) : Bool × Population κ :=
  (p.isNone, some (p.getD [] ++ callback.toList))

def complete (p : Population κ) : List κ × Population κ := (p.getD [], none)

end Population

end RecordCache
