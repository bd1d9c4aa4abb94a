import RecordMapping.Repository
import RecordMapping.Typed

/-!
# Typed access

Reading the records of a typed model as values of its type.
-/

namespace RecordMapping

variable {α : Type}

/-- The repository of the model that a type describes. -/
def Mapping.repositoryOf (α : Type) [TypedModel α] (mapping : Mapping) : Result Repository :=
  mapping.repository (TypedModel.model α).name

/-- The values that the records of a page describe. -/
def Page.typed [TypedModel α] (page : Page) : Result (List α) := page.data.mapM TypedModel.ofRecord

/-- The first value that a lookup finds. -/
def Repository.findTyped [TypedModel α] (repo : Repository) (lookup : Lookup) : Run α := do
  let record ← repo.find lookup
  Run.ofResult (TypedModel.ofRecord record)

end RecordMapping
