import CounterFormula.Registry
import Mathlib.Data.Finset.Card
import Mathlib.Data.Finset.Dedup

/-!
# Run — Context

The KPIs that are being resolved, as one shared record that a nested run pushes a KPI on and pops
it from: the ids in order, for messages, and the same ids as a set, for looking up.

Popping forgets the last id in the set as well, so the two only agree as long as no id is on the
stack twice.

* `pop_push`: a KPI that was not being resolved leaves no mark behind.
* `Valid.push`, `Valid.depth_le`: the ids on the stack are distinct and registered, so there are no
  more of them than of registered ids.
-/

namespace CounterFormula

/-- The distinct ids that are registered. -/
def Registries.ids (registries : Registries) : Finset Text :=
  (registries.kpis.getD .empty).ids.toFinset

theorem Registries.mem_ids_of_lookupKpi {registries : Registries} {id document : Text}
    (h : registries.lookupKpi id = some document) : id ∈ registries.ids := by
  obtain ⟨kpis, hkpis, hlookup⟩ := Option.bind_eq_some_iff.mp h
  rw [ids, hkpis, Option.getD_some, List.mem_toFinset]
  exact KpiRegistry.mem_ids_of_lookup hlookup

/-- The KPIs that are being resolved. -/
structure Context where
  stack : List Text
  members : Finset Text
  deriving DecidableEq

namespace Context

def empty : Context := ⟨[], ∅⟩

/-- How deep the resolution is nested. -/
def depth (context : Context) : Nat :=
  context.stack.length

def push (context : Context) (id : Text) : Context :=
  ⟨context.stack ++ [id], insert id context.members⟩

/-- Without the id pushed last. -/
def pop (context : Context) : Context :=
  match context.stack.getLast? with
  | none => context
  | some id => ⟨context.stack.dropLast, context.members.erase id⟩

/-- The stack and the set hold the same ids, each once, and all of them are registered. -/
structure Valid (registries : Registries) (context : Context) : Prop where
  nodup : context.stack.Nodup
  members_eq : context.members = context.stack.toFinset
  registered : ∀ id ∈ context.stack, id ∈ registries.ids

theorem depth_push (context : Context) (id : Text) :
    (context.push id).depth = context.depth + 1 := by
  rw [depth, push, List.length_append]
  rfl

/-- Popping restores what pushing has found, unless the id was there already. -/
theorem pop_push {context : Context} {id : Text} (h : id ∉ context.members) :
    (context.push id).pop = context := by
  rw [pop, push]
  simp only [List.getLast?_concat, List.dropLast_concat, Finset.erase_insert h]

variable {registries : Registries} {context : Context}

theorem valid_empty (registries : Registries) : Valid registries .empty :=
  ⟨.nil, rfl, nofun⟩

namespace Valid

theorem mem_members_iff (h : Valid registries context) {id : Text} :
    id ∈ context.members ↔ id ∈ context.stack := by
  rw [h.members_eq, List.mem_toFinset]

theorem push {id : Text} (h : Valid registries context) (hid : id ∈ registries.ids)
    (hnew : id ∉ context.stack) : Valid registries (context.push id) := by
  refine ⟨?_, ?_, ?_⟩
  · exact List.nodup_append.mpr ⟨h.nodup, List.nodup_singleton id, fun a ha b hb heq =>
      hnew (by rwa [← List.mem_singleton.mp hb, ← heq])⟩
  · rw [Context.push, h.members_eq, List.toFinset_append, List.toFinset_cons, List.toFinset_nil,
      Finset.union_insert, Finset.union_empty]
  · intro known hknown
    rcases List.mem_append.mp hknown with hknown | hknown
    · exact h.registered known hknown
    · rwa [List.mem_singleton.mp hknown]

/-- **The nesting is bounded** by the number of registered ids. -/
theorem depth_le (h : Valid registries context) : context.depth ≤ registries.ids.card := by
  rw [depth, ← List.toFinset_card_of_nodup h.nodup]
  exact Finset.card_le_card fun id hid => h.registered id (List.mem_toFinset.mp hid)

end Valid

end Context

end CounterFormula
