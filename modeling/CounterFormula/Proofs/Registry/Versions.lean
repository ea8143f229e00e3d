import CounterFormula.Proofs.Summation.Screenings
import CounterFormula.Proofs.Text.Bytes
import Mathlib.Data.List.Induction

/-!
# Registry — Versions

What a screening registry tells of the versions of a release.  The versions that it lists are those
that its screenings in the release have, whatever their counters, the greatest first; a query with a
version narrows the query without one.  So the first version that is listed is the *newest*, and
when none is listed no screening in the release has one.

* `rows_ofEntries`: a registry keeps what is entered, in order.
* `mem_versions_iff`, `pairwise_versions`: which versions are listed, and in which order.
* `query_newest`: a query with the newest version, or without one when none is listed, finds just
  the screenings of that version.
* `versions_agree`: so queries, listed versions and the sums of the newest version agree.
-/

namespace CounterFormula

namespace ScreeningRegistry

/-! ### Entries -/

/-- What is entered in a registry at once. -/
inductive Entry where
  | row (screening : Screening)
  | counter (name release : Text) (screenings : List (Int × Text))
  deriving DecidableEq, Repr

/-- `registry` with one more entry. -/
def enter (registry : ScreeningRegistry) : Entry → ScreeningRegistry
  | .row screening => registry.push screening
  | .counter name release screenings => registry.addCounter name release screenings

/-- The registry of `entries`, entered one after the other. -/
def ofEntries (entries : List Entry) : ScreeningRegistry :=
  entries.foldl enter empty

/-- The screenings of an entry, in order. -/
def Entry.rows : Entry → List Screening
  | .row screening => [screening]
  | .counter name release screenings =>
    screenings.map fun (id, suffix) => ⟨name, release, none, id, suffix⟩

theorem rows_enter (registry : ScreeningRegistry) (entry : Entry) :
    (registry.enter entry).rows = registry.rows ++ entry.rows := by
  cases entry <;> rfl

/-- **A registry keeps what is entered**, in order. -/
theorem rows_ofEntries (entries : List Entry) :
    (ofEntries entries).rows = entries.flatMap Entry.rows := by
  induction entries using List.reverseRecOn with
  | nil => rfl
  | append_singleton entries entry ih =>
      rw [ofEntries, List.foldl_append, ← ofEntries, List.foldl_cons, List.foldl_nil, rows_enter,
        ih, List.flatMap_append, List.flatMap_singleton]

/-! ### Queries -/

variable {registry : ScreeningRegistry} {counter release : Text} {version : Option Text}
  {row : Screening}

theorem mem_query_iff : row ∈ registry.query counter release version ↔
    row ∈ registry.rows ∧ row.counter = counter ∧ row.release = release ∧
      (version = none ∨ row.version = version) := by
  rw [query, List.mem_filter]
  simp only [Bool.and_eq_true, Bool.or_eq_true, beq_iff_eq, Option.isNone_iff_eq_none, and_assoc]

theorem query_sublist (registry : ScreeningRegistry) (counter release : Text)
    (version : Option Text) : (registry.query counter release version).Sublist registry.rows :=
  List.filter_sublist

/-- A version narrows a query. -/
theorem query_some_sublist (registry : ScreeningRegistry) (counter release version : Text) :
    (registry.query counter release (some version)).Sublist
      (registry.query counter release none) := by
  refine List.monotone_filter_right registry.rows fun row hrow => ?_
  simp only [Option.isNone_none, Bool.true_or, Bool.and_true]
  exact (Bool.and_eq_true_iff.mp hrow).1

/-! ### Listed versions -/

/-- **The versions that are listed** are those of the screenings in the release. -/
theorem mem_versions_iff {version : Text} : version ∈ registry.versions release ↔
    ∃ row ∈ registry.rows, row.release = release ∧ row.version = some version := by
  rw [versions, List.mem_reverse, Ascending.mem_ofList, List.mem_filterMap]
  simp only [List.mem_filter, beq_iff_eq, and_assoc]

/-- The greatest comes first, and none comes twice. -/
theorem pairwise_versions (registry : ScreeningRegistry) (release : Text) :
    (registry.versions release).Pairwise (· > ·) :=
  List.pairwise_reverse.mpr (Ascending.pairwise_ofList _)

/-- `version` is the newest of `versions`, by the order of bytes; none if there are none. -/
inductive Newest (versions : List Text) : Option Text → Prop
  | none (h : versions = []) : Newest versions .none
  | some {version : Text} (hmem : version ∈ versions)
      (hgreatest : ∀ other ∈ versions, other.utf8 ≤ version.utf8) : Newest versions (.some version)

/-- **The newest version** is listed first. -/
theorem newest_head? (registry : ScreeningRegistry) (release : Text) :
    Newest (registry.versions release) (registry.versions release).head? := by
  have hdescending := registry.pairwise_versions release
  cases hversions : registry.versions release with
  | nil => exact .none rfl
  | cons first rest =>
      rw [hversions] at hdescending
      refine .some List.mem_cons_self (List.forall_mem_cons.mpr ⟨?_, fun other hother => ?_⟩)
      · exact List.le_refl _
      · have hlt := (List.pairwise_cons.mp hdescending).1 other hother
        exact List.le_of_lt (Text.utf8_lt_iff.mpr hlt)

/-- Without a listed version no screening in the release has one. -/
theorem version_eq_none (h : registry.versions release = []) (hrow : row ∈ registry.rows)
    (hrelease : row.release = release) : row.version = none := by
  cases hversion : row.version with
  | none => rfl
  | some version =>
      have hmem := mem_versions_iff.mpr ⟨row, hrow, hrelease, hversion⟩
      rw [h] at hmem
      cases hmem

/-- **A query for the newest version** finds the screenings of just that version. -/
theorem query_newest {newest : Option Text} (h : Newest (registry.versions release) newest)
    (counter : Text) : registry.query counter release newest =
      registry.rows.filter fun row =>
        row.counter = counter ∧ row.release = release ∧ row.version = newest := by
  refine List.filter_congr fun row hrow => Bool.eq_iff_iff.mpr ?_
  simp only [Bool.and_eq_true, Bool.or_eq_true, beq_iff_eq, Option.isNone_iff_eq_none, and_assoc,
    decide_eq_true_eq]
  refine and_congr_right fun _ => and_congr_right fun hrelease => ?_
  cases h with
  | none hnil => exact iff_of_true (.inl rfl) (version_eq_none hnil hrow hrelease)
  | some => exact or_iff_right (Option.some_ne_none _)

/-! ### Agreement -/

/-- A version is listed when a query for it finds a screening. -/
theorem mem_versions_iff_query {version : Text} : version ∈ registry.versions release ↔
    ∃ counter, registry.query counter release (some version) ≠ [] := by
  rw [mem_versions_iff]
  constructor
  · rintro ⟨row, hrow, hrelease, hversion⟩
    exact ⟨row.counter, List.ne_nil_of_mem (mem_query_iff.mpr ⟨hrow, rfl, hrelease, .inr hversion⟩)⟩
  · rintro ⟨counter, hfound⟩
    obtain ⟨row, hmem⟩ := List.exists_mem_of_ne_nil _ hfound
    obtain ⟨hrow, -, hrelease, hversion⟩ := mem_query_iff.mp hmem
    exact ⟨row, hrow, hrelease, hversion.resolve_left (Option.some_ne_none version)⟩

/-- **The sum of the newest version.**  Under the policy `latest` a summation expands to the terms
of the screenings that it asks for, of the newest version of the release, in their order. -/
theorem expand_newest {config : Config} (hpolicy : config.version = .latest)
    (registry : ScreeningRegistry) (summation : Summation) {newest : Option Text}
    (hnewest : newest = (registry.versions config.release).head?) :
    (summation.expand config (some registry)).1 =
      Summation.sum ((registry.rows.filter fun row =>
        row.counter = summation.counter ∧ row.release = config.release ∧ row.version = newest ∧
          (row.id ∈ summation.ids ∨ row.suffix ∈ summation.names)).map summation.term) := by
  have hfound : summation.found config registry =
      registry.rows.filter fun row =>
        row.counter = summation.counter ∧ row.release = config.release ∧ row.version = newest := by
    rw [Summation.found, hpolicy, Summation.versionFor, ← hnewest,
      query_newest (hnewest ▸ registry.newest_head? _)]
  rw [Summation.fst_expand, hfound, List.filter_filter]
  congr 2
  refine List.filter_congr fun row _ => Bool.eq_iff_iff.mpr ?_
  simp only [Bool.and_eq_true, decide_eq_true_eq]
  rw [and_comm, and_assoc, and_assoc]

/-- **Versions agree.**  Of the registry that results from any entries, one after the other, and any
release: the versions listed descend in the order of their bytes, and are those that a query for
some counter finds screenings of.  What a query for a version finds is found without the version
too, in the order of entry.  Under the policy `latest` a summation expands to the sum of the terms
of just the screenings that it asks for among those of its counter, of the release and of the newest
version that is listed, or of no version if none is listed. -/
theorem versions_agree (entries : List Entry) (release : Text) :
    let registry := ofEntries entries
    let versions := registry.versions release
    (versions.map Text.utf8).Pairwise (· > ·) ∧
      (∀ version, version ∈ versions ↔
        ∃ counter, registry.query counter release (some version) ≠ []) ∧
      (∀ counter version,
        (registry.query counter release (some version)).Sublist
            (registry.query counter release none) ∧
          (registry.query counter release none).Sublist (entries.flatMap Entry.rows)) ∧
      ∃ newest, Newest versions newest ∧
        ∀ (config : Config) (summation : Summation),
          (summation.expand { config with release := release, version := .latest }
              (some registry)).1 =
            Summation.sum (((entries.flatMap Entry.rows).filter fun row =>
              row.counter = summation.counter ∧ row.release = release ∧ row.version = newest ∧
                (row.id ∈ summation.ids ∨ row.suffix ∈ summation.names)).map summation.term) := by
  intro registry versions
  have hrows : registry.rows = entries.flatMap Entry.rows := rows_ofEntries entries
  refine ⟨List.pairwise_map.mpr ?_, fun version => mem_versions_iff_query,
    fun counter version => ⟨query_some_sublist registry counter release version, ?_⟩,
    versions.head?, newest_head? registry release, fun config summation => ?_⟩
  · exact (registry.pairwise_versions release).imp Text.utf8_lt_iff.mpr
  · rw [← hrows]
    exact query_sublist registry counter release none
  · rw [← hrows]
    exact expand_newest rfl registry summation rfl

end ScreeningRegistry

end CounterFormula
