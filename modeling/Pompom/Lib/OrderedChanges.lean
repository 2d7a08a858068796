import Mathlib.Data.List.Sort
import Mathlib.Data.List.Nodup
import Mathlib.Order.Basic

/-!
# Ordered results and their changes

The result of an ordered query is a list of records, sorted by a key, in which
every record has its own ID.  A listener is told how one result turns into the
next by a list of changes, at most one for each ID: a record is added, modified
or removed.  `applyChange` is what such a change does to the result.

A consumer that watches only the records with a property `p`, and that reacts to
additions alone by appending, follows the result exactly when every change it
ignores is about other records and every addition comes last
(`filter_applyChanges_iff`).
-/

namespace Pompom.Lib

/-- How records are identified and sorted; records with the same sort key are the
same record. -/
structure Keying (α ι κ : Type*) where
  id : α → ι
  key : α → κ
  id_of_key : ∀ first second, key first = key second → id first = id second

inductive ChangeType where
  | added
  | modified
  | removed
  deriving DecidableEq, Repr

structure Change (α : Type*) where
  type : ChangeType
  document : α
  deriving DecidableEq

variable {α ι κ : Type*} [DecidableEq ι] [LinearOrder κ]

namespace Keying

variable (K : Keying α ι κ)

def insert (result : List α) (record : α) : List α :=
  result.orderedInsert (fun first second => K.key first ≤ K.key second) record

def erase (result : List α) (id : ι) : List α :=
  result.filter fun record => K.id record ≠ id

/-- The result after one change. -/
def applyChange (result : List α) (change : Change α) : List α :=
  match change.type with
  | .added => K.insert result change.document
  | .modified => K.insert (K.erase result (K.id change.document)) change.document
  | .removed => K.erase result (K.id change.document)

/-- Sorted, with one record for each ID. -/
structure Ordered (result : List α) : Prop where
  sorted : result.Pairwise fun first second => K.key first ≤ K.key second
  ids : (result.map K.id).Nodup

/-- What a change says about the ID of its record. -/
def ValidChange (result : List α) (change : Change α) : Prop :=
  match change.type with
  | .added => K.id change.document ∉ result.map K.id
  | .modified | .removed => K.id change.document ∈ result.map K.id

/-- A list of changes that turns one result into the next: at most one change for
each ID. -/
structure ValidChanges (result : List α) (changes : List (Change α)) : Prop where
  ids : (changes.map fun change => K.id change.document).Nodup
  valid : ∀ change ∈ changes, K.ValidChange result change

variable {K}

/-! ## Records and IDs -/

omit [DecidableEq ι] in
theorem mem_insert {result : List α} {record other : α} :
    other ∈ K.insert result record ↔ other = record ∨ other ∈ result :=
  List.mem_orderedInsert _

omit [LinearOrder κ] in
theorem mem_erase {result : List α} {id : ι} {other : α} :
    other ∈ K.erase result id ↔ other ∈ result ∧ K.id other ≠ id := by
  simp [erase]

/-- A change leaves the records with other IDs alone. -/
theorem mem_applyChange_of_ne {result : List α} {change : Change α} {record : α}
    (hne : K.id record ≠ K.id change.document) :
    record ∈ K.applyChange result change ↔ record ∈ result := by
  have hrecord : record ≠ change.document := fun heq => hne (congrArg K.id heq)
  unfold applyChange
  cases change.type with
  | added => simp [mem_insert, hrecord]
  | modified => simp [mem_insert, mem_erase, hrecord, hne]
  | removed => simp [mem_erase, hne]

theorem mem_foldl_of_untouched {changes : List (Change α)} {result : List α} {record : α}
    (huntouched : ∀ change ∈ changes, K.id record ≠ K.id change.document) :
    record ∈ changes.foldl K.applyChange result ↔ record ∈ result := by
  induction changes generalizing result with
  | nil => rfl
  | cons change rest ih =>
      rw [List.foldl_cons, ih fun other hother => huntouched other (List.mem_cons_of_mem _ hother)]
      exact mem_applyChange_of_ne (huntouched change List.mem_cons_self)

omit [DecidableEq ι] in
theorem ids_insert_perm (result : List α) (record : α) :
    ((K.insert result record).map K.id).Perm (K.id record :: result.map K.id) :=
  (List.perm_orderedInsert _ record result).map K.id

omit [DecidableEq ι] in
theorem Ordered.insert {result : List α} (hordered : K.Ordered result) {record : α}
    (hnew : K.id record ∉ result.map K.id) : K.Ordered (K.insert result record) := by
  have : Std.Total fun first second : α => K.key first ≤ K.key second :=
    ⟨fun first second => le_total _ _⟩
  have : IsTrans α fun first second => K.key first ≤ K.key second :=
    ⟨fun _ _ _ => le_trans⟩
  refine ⟨hordered.sorted.orderedInsert _ _, ?_⟩
  exact (ids_insert_perm result record).nodup_iff.mpr (List.nodup_cons.mpr ⟨hnew, hordered.ids⟩)

theorem Ordered.erase {result : List α} (hordered : K.Ordered result) (id : ι) :
    K.Ordered (K.erase result id) :=
  ⟨hordered.sorted.filter _, hordered.ids.sublist (List.filter_sublist.map K.id)⟩

omit [LinearOrder κ] in
theorem id_notMem_erase (result : List α) (id : ι) : id ∉ (K.erase result id).map K.id := by
  simp only [List.mem_map, not_exists, not_and]
  intro record hrecord
  exact (mem_erase.mp hrecord).2

theorem Ordered.applyChange {result : List α} (hordered : K.Ordered result) {change : Change α}
    (hvalid : K.ValidChange result change) : K.Ordered (K.applyChange result change) := by
  unfold Keying.applyChange
  unfold ValidChange at hvalid
  cases htype : change.type with
  | added =>
      rw [htype] at hvalid
      exact hordered.insert hvalid
  | modified => exact (hordered.erase _).insert (id_notMem_erase _ _)
  | removed => exact hordered.erase _

omit [DecidableEq ι] in
/-- Two records of an ordered result with one ID are the same. -/
theorem Ordered.eq_of_id {result : List α} (hordered : K.Ordered result) {first second : α}
    (hfirst : first ∈ result) (hsecond : second ∈ result) (hid : K.id first = K.id second) :
    first = second :=
  List.inj_on_of_nodup_map hordered.ids hfirst hsecond hid

theorem ValidChanges.tail {result : List α} {change : Change α} {rest : List (Change α)}
    (hvalid : K.ValidChanges result (change :: rest)) :
    K.ValidChanges (K.applyChange result change) rest := by
  have hids := List.nodup_cons.mp hvalid.ids
  refine ⟨hids.2, fun other hother => ?_⟩
  have hne : K.id other.document ≠ K.id change.document := by
    intro heq
    exact hids.1 (List.mem_map.mpr ⟨other, hother, heq⟩)
  have hkept : K.id other.document ∈ (K.applyChange result change).map K.id ↔
      K.id other.document ∈ result.map K.id := by
    simp only [List.mem_map]
    refine exists_congr fun record => and_congr_left ?_
    intro hid
    exact mem_applyChange_of_ne (by rw [hid]; exact hne)
  have hother' := hvalid.valid other (List.mem_cons_of_mem _ hother)
  unfold ValidChange at hother' ⊢
  cases htype : other.type <;> simp only [htype] at hother' ⊢
  · exact fun hmem => hother' (hkept.mp hmem)
  · exact hkept.mpr hother'
  · exact hkept.mpr hother'

theorem Ordered.foldl {changes : List (Change α)} {result : List α} (hordered : K.Ordered result)
    (hvalid : K.ValidChanges result changes) :
    K.Ordered (changes.foldl K.applyChange result) := by
  induction changes generalizing result with
  | nil => exact hordered
  | cons change rest ih =>
      exact ih (hordered.applyChange (hvalid.valid change List.mem_cons_self)) hvalid.tail

/-! ## Watching the records with a property -/

variable (K) (p : α → Prop) [DecidablePred p]

/-- A change that a consumer of additions can follow: it adds a watched record
behind all watched ones, or it leaves the watched records as they are. -/
def Appends (result : List α) (change : Change α) : Prop :=
  match change.type with
  | .added => p change.document →
      ∀ record ∈ result, p record → K.key record ≤ K.key change.document
  | .modified => ∀ record ∈ result, K.id record = K.id change.document →
      record = change.document ∨ (¬ p record ∧ ¬ p change.document)
  | .removed => ∀ record ∈ result, K.id record = K.id change.document → ¬ p record

/-- Every change of the list, applied in turn, is one that a consumer of additions
can follow. -/
def AllAppend (result : List α) : List (Change α) → Prop
  | [] => True
  | change :: rest => K.Appends p result change ∧ AllAppend (K.applyChange result change) rest

/-- The watched records that a list of changes adds, in order. -/
def addedBy (changes : List (Change α)) : List α :=
  (changes.filter fun change => change.type = .added ∧ p change.document).map (·.document)

variable {K p}

omit [DecidableEq ι] in
theorem filter_insert_of_not {result : List α} {record : α} (hrecord : ¬ p record) :
    (K.insert result record).filter (fun other => decide (p other)) =
      result.filter fun other => decide (p other) := by
  unfold Keying.insert
  induction result with
  | nil => simp [hrecord]
  | cons head rest ih =>
      rw [List.orderedInsert_cons]
      split
      · simp [hrecord]
      · rw [List.filter_cons, List.filter_cons, ih]

omit [DecidableEq ι] in
/-- A watched record that sorts behind all watched ones is appended to them. -/
theorem filter_insert_of_last {result : List α} (hordered : K.Ordered result) {record : α}
    (hrecord : p record) (hlast : ∀ other ∈ result, p other → K.key other < K.key record) :
    (K.insert result record).filter (fun other => decide (p other)) =
      result.filter (fun other => decide (p other)) ++ [record] := by
  have hsorted := hordered.sorted
  clear hordered
  unfold Keying.insert
  induction result with
  | nil => simp [hrecord]
  | cons head rest ih =>
      obtain ⟨hhead, hrest⟩ := List.pairwise_cons.mp hsorted
      rw [List.orderedInsert_cons]
      split
      · -- everything from here on sorts behind the record, so nothing of it is watched
        rename_i hle
        have hnone : (head :: rest).filter (fun other => decide (p other)) = [] := by
          refine List.filter_eq_nil_iff.mpr ?_
          intro other hother hwatched
          have hge : K.key record ≤ K.key other := by
            rcases List.mem_cons.mp hother with rfl | hother
            · exact hle
            · exact hle.trans (hhead other hother)
          exact absurd (hlast _ hother (of_decide_eq_true hwatched)) (not_lt.mpr hge)
        rw [List.filter_cons, if_pos (decide_eq_true hrecord), hnone, List.nil_append]
      · rw [List.filter_cons, List.filter_cons,
          ih (fun other hother => hlast other (List.mem_cons_of_mem _ hother)) hrest]
        split <;> simp

/-- Taking a record out and sorting it in again changes nothing. -/
theorem insert_erase_self {result : List α} (hordered : K.Ordered result) {record : α}
    (hrecord : record ∈ result) : K.insert (K.erase result (K.id record)) record = result := by
  induction result with
  | nil => simp at hrecord
  | cons head rest ih =>
      obtain ⟨hhead, hrest⟩ := List.pairwise_cons.mp hordered.sorted
      obtain ⟨hfresh, hids⟩ := List.nodup_cons.mp hordered.ids
      rcases List.mem_cons.mp hrecord with rfl | hmem
      · have hkept : K.erase (record :: rest) (K.id record) = rest := by
          unfold Keying.erase
          rw [List.filter_cons, if_neg (by simp)]
          refine List.filter_eq_self.mpr ?_
          intro other hother
          simpa using fun heq => hfresh (List.mem_map.mpr ⟨other, hother, heq⟩)
        rw [hkept]
        cases rest with
        | nil => rfl
        | cons next rest =>
            exact List.orderedInsert_cons_of_le _ _ (hhead next List.mem_cons_self)
      · have hne : K.id head ≠ K.id record := fun heq =>
          hfresh (List.mem_map.mpr ⟨record, hmem, heq.symm⟩)
        have hlt : ¬ K.key record ≤ K.key head := fun hle =>
          hne (K.id_of_key _ _ (le_antisymm (hhead record hmem) hle))
        have hkept : K.erase (head :: rest) (K.id record) = head :: K.erase rest (K.id record) := by
          simp [Keying.erase, hne]
        rw [hkept, Keying.insert, List.orderedInsert_cons, if_neg hlt]
        exact congrArg (head :: ·) (ih ⟨hrest, hids⟩ hmem)

omit [LinearOrder κ] in
theorem filter_erase_of_not {result : List α} {id : ι}
    (hnot : ∀ record ∈ result, K.id record = id → ¬ p record) :
    (K.erase result id).filter (fun record => decide (p record)) =
      result.filter fun record => decide (p record) := by
  rw [Keying.erase, List.filter_filter]
  refine List.filter_congr ?_
  intro record hrecord
  by_cases hp : p record
  · have hne : K.id record ≠ id := fun heq => hnot record hrecord heq hp
    simp [hp, hne]
  · simp [hp]

/-- What a change that can be followed does to the watched records. -/
theorem filter_applyChange {result : List α} (hordered : K.Ordered result) {change : Change α}
    (hvalid : K.ValidChange result change) (happends : K.Appends p result change) :
    (K.applyChange result change).filter (fun record => decide (p record)) =
      result.filter (fun record => decide (p record)) ++ addedBy p [change] := by
  unfold Appends at happends
  unfold ValidChange at hvalid
  unfold applyChange addedBy
  cases htype : change.type <;> simp only [htype] at happends hvalid ⊢
  · by_cases hp : p change.document
    · rw [filter_insert_of_last hordered hp]
      · simp [htype, hp]
      · intro other hother hwatched
        refine lt_of_le_of_ne (happends hp other hother hwatched) fun heq => hvalid ?_
        exact List.mem_map.mpr ⟨other, hother, K.id_of_key _ _ heq⟩
    · rw [filter_insert_of_not hp]
      simp [htype, hp]
  · obtain ⟨record, hrecord, hid⟩ := List.mem_map.mp hvalid
    rcases happends record hrecord hid with rfl | ⟨hrecord', hdocument⟩
    · rw [insert_erase_self hordered hrecord]
      simp [htype]
    · rw [filter_insert_of_not hdocument, filter_erase_of_not]
      · simp [htype]
      · intro other hother hother'
        rwa [hordered.eq_of_id hother hrecord (hother'.trans hid.symm)]
  · rw [filter_erase_of_not happends]
    simp [htype]

theorem addedBy_cons (change : Change α) (rest : List (Change α)) :
    addedBy p (change :: rest) = addedBy p [change] ++ addedBy p rest := by
  unfold addedBy
  rw [← List.map_append, ← List.filter_append]
  rfl

/-- If the watched records grow by the added ones, the first change is one that
can be followed. -/
theorem appends_of_filter_eq {result : List α} (hordered : K.Ordered result)
    {change : Change α} {rest : List (Change α)} (hvalid : K.ValidChanges result (change :: rest))
    (hgrown : ((change :: rest).foldl K.applyChange result).filter
        (fun record => decide (p record)) =
      result.filter (fun record => decide (p record)) ++ addedBy p (change :: rest)) :
    K.Appends p result change := by
  set final := (change :: rest).foldl K.applyChange result with hfinal
  have hids := List.nodup_cons.mp hvalid.ids
  -- no later change touches the record of this one
  have huntouched : ∀ record, K.id record = K.id change.document →
      (record ∈ final ↔ record ∈ K.applyChange result change) := by
    intro record hid
    rw [hfinal, List.foldl_cons]
    refine mem_foldl_of_untouched fun other hother heq => hids.1 ?_
    exact List.mem_map.mpr ⟨other, hother, heq.symm.trans hid⟩
  have hkept : ∀ record ∈ result, p record → record ∈ final := by
    intro record hrecord hp
    have hmem : record ∈ final.filter fun record => decide (p record) := by
      rw [hgrown]
      exact List.mem_append_left _ (List.mem_filter.mpr ⟨hrecord, decide_eq_true hp⟩)
    exact (List.mem_filter.mp hmem).1
  unfold Appends
  cases htype : change.type <;> simp only
  · -- the result is sorted, and the added record stands behind the old ones
    intro hp record hrecord hrecord'
    have hsorted : (final.filter fun record => decide (p record)).Pairwise
        fun first second => K.key first ≤ K.key second :=
      (hordered.foldl hvalid).sorted.filter _
    rw [hgrown, List.pairwise_append] at hsorted
    refine hsorted.2.2 record (List.mem_filter.mpr ⟨hrecord, decide_eq_true hrecord'⟩) _ ?_
    simp [addedBy, htype, hp]
  · -- a watched record that was modified has not changed, or the growth would miss it
    intro record hrecord hid
    by_cases hp : p record
    · left
      have hmem := (huntouched record hid).mp (hkept record hrecord hp)
      rw [applyChange, htype] at hmem
      rcases mem_insert.mp hmem with heq | hmem
      · exact heq
      · exact absurd hid (mem_erase.mp hmem).2
    · by_cases hp' : p change.document
      · left
        have hmem : change.document ∈ final := by
          rw [huntouched _ rfl, applyChange, htype]
          exact mem_insert.mpr (.inl rfl)
        have hwatched : change.document ∈ final.filter fun record => decide (p record) :=
          List.mem_filter.mpr ⟨hmem, decide_eq_true hp'⟩
        rw [hgrown] at hwatched
        rcases List.mem_append.mp hwatched with hold | hnew
        · exact hordered.eq_of_id hrecord (List.mem_filter.mp hold).1 hid
        · obtain ⟨other, hother, heq⟩ := List.mem_map.mp hnew
          obtain ⟨hchange, hadded⟩ := List.mem_filter.mp hother
          rcases List.mem_cons.mp hchange with rfl | hother
          · simp [htype] at hadded
          · exact absurd (List.mem_map.mpr ⟨other, hother, by rw [heq]⟩) hids.1
      · exact .inr ⟨hp, hp'⟩
  · intro record hrecord hid hp
    have hmem := (huntouched record hid).mp (hkept record hrecord hp)
    rw [applyChange, htype] at hmem
    exact (mem_erase.mp hmem).2 hid

/-- A list of changes makes the watched records grow by exactly the added ones, at
the end, if and only if every change is one that can be followed. -/
theorem filter_applyChanges_iff {result : List α} (hordered : K.Ordered result)
    {changes : List (Change α)} (hvalid : K.ValidChanges result changes) :
    (changes.foldl K.applyChange result).filter (fun record => decide (p record)) =
        result.filter (fun record => decide (p record)) ++ addedBy p changes ↔
      K.AllAppend p result changes := by
  induction changes generalizing result with
  | nil => simp [AllAppend, addedBy]
  | cons change rest ih =>
      have hfirst := hvalid.valid change List.mem_cons_self
      constructor
      · intro hgrown
        have happends := appends_of_filter_eq hordered hvalid hgrown
        refine ⟨happends, (ih (hordered.applyChange hfirst) hvalid.tail).mp ?_⟩
        rw [filter_applyChange hordered hfirst happends, List.append_assoc, ← addedBy_cons]
        exact hgrown
      · rintro ⟨happends, hrest⟩
        rw [List.foldl_cons, (ih (hordered.applyChange hfirst) hvalid.tail).mpr hrest,
          filter_applyChange hordered hfirst happends, List.append_assoc, ← addedBy_cons]

end Keying

end Pompom.Lib
