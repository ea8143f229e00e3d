import CounterFormula.Text.Basic

/-!
# Registry — KPI

The formula documents of the known KPIs, by id.

* `mem_ids_of_lookup`: only registered ids are answered.
* `pending_lt`: putting a registered id on a chain leaves fewer ids off it, which is what
  bounds the nesting of references.
-/

namespace CounterFormula

/-- A finite map from KPI ids to formula documents. -/
structure KpiRegistry where
  entries : List (Text × Text)
  deriving DecidableEq, Repr

namespace KpiRegistry

def empty : KpiRegistry := ⟨[]⟩

/-- The document of `id`. -/
def lookup (registry : KpiRegistry) (id : Text) : Option Text :=
  registry.entries.lookup id

/-- The registered ids. -/
def ids (registry : KpiRegistry) : List Text :=
  registry.entries.map Prod.fst

def size (registry : KpiRegistry) : Nat :=
  registry.entries.length

/-- `registry` with `document` as the document of `id`, in the place of an earlier one. -/
def insert (registry : KpiRegistry) (id document : Text) : KpiRegistry :=
  if id ∈ registry.ids then
    ⟨registry.entries.map fun entry => if entry.1 = id then (id, document) else entry⟩
  else
    ⟨registry.entries ++ [(id, document)]⟩

/-! ### Ids on and off a chain -/

theorem mem_ids_of_lookup {registry : KpiRegistry} {id document : Text}
    (h : registry.lookup id = some document) : id ∈ registry.ids := by
  obtain ⟨entries⟩ := registry
  simp only [lookup, ids] at h ⊢
  induction entries with
  | nil => cases h
  | cons entry rest ih =>
    obtain ⟨key, value⟩ := entry
    simp only [List.lookup_cons] at h
    split at h
    next hid => simp [eq_of_beq hid]
    next => simp [ih h]

/-- How many registered ids are not on `chain`. -/
def pending (registry : KpiRegistry) (chain : List Text) : Nat :=
  (registry.ids.filter fun id => decide (id ∉ chain)).length

theorem pending_lt {registry : KpiRegistry} {chain : List Text} {id : Text}
    (hid : id ∈ registry.ids) (hchain : id ∉ chain) :
    registry.pending (chain ++ [id]) < registry.pending chain := by
  have hsplit : registry.ids.filter (fun x => decide (x ∉ chain ++ [id]))
      = (registry.ids.filter fun x => decide (x ∉ chain)).filter fun x => decide (x ≠ id) := by
    rw [List.filter_filter]
    congr 1
    funext x
    by_cases hx : x ∈ chain <;> by_cases hxi : x = id <;> simp_all
  unfold pending
  rw [hsplit]
  refine List.length_filter_lt_length_iff_exists.mpr ⟨id, ?_, by simp⟩
  simp [hid, hchain]

end KpiRegistry

end CounterFormula
