import Pompom.Lib.OrderedChanges

/-!
# Sorted sets with an index

A `KeyedSet` holds records sorted by a key and looks them up by ID.  It is
determined by its lookups (`KeyedSet.ext_get`), and an insertion replaces the
record with the same ID.

The records before and after some changes are compared ID by ID: if every ID
without a change keeps its record, and every ID with a change has the record that
the change says, then applying the changes to the first list in any order gives
the second (`foldl_applyChange_eq`).
-/

namespace Pompom.Lib

variable {α β ι κ : Type*} [DecidableEq ι] [LinearOrder κ]

namespace Keying

/-- Records that carry a keyed value. -/
def comap (K : Keying α ι κ) (value : β → α) : Keying β ι κ where
  id record := K.id (value record)
  key record := K.key (value record)
  id_of_key first second heq := K.id_of_key (value first) (value second) heq

variable {K : Keying α ι κ}

omit [DecidableEq ι] in
theorem Ordered.map {value : β → α} {records : List β}
    (hordered : (K.comap value).Ordered records) : K.Ordered (records.map value) :=
  ⟨List.pairwise_map.mpr hordered.sorted, by rw [List.map_map]; exact hordered.ids⟩

omit [DecidableEq ι] in
/-- Two ordered results with the same records are the same list. -/
theorem Ordered.ext {first second : List α} (hfirst : K.Ordered first) (hsecond : K.Ordered second)
    (hmem : ∀ record, record ∈ first ↔ record ∈ second) : first = second := by
  have hperm : first.Perm second :=
    (List.perm_ext_iff_of_nodup (hfirst.ids.of_map K.id) (hsecond.ids.of_map K.id)).mpr hmem
  refine hperm.eq_of_pairwise ?_ hfirst.sorted hsecond.sorted
  intro record other hrecord hother hle hge
  have hid := K.id_of_key _ _ (le_antisymm hle hge)
  exact hfirst.eq_of_id hrecord ((hmem other).mpr hother) hid

/-- The records after valid changes: those the changes bring, and the untouched
ones. -/
theorem mem_foldl_applyChange {changes : List (Change α)} {result : List α} {record : α}
    (hids : (changes.map fun change => K.id change.document).Nodup) :
    record ∈ changes.foldl K.applyChange result ↔
      (∃ change ∈ changes, change.document = record ∧ change.type ≠ .removed) ∨
        record ∈ result ∧ ∀ change ∈ changes, change.type = .added ∨
          K.id record ≠ K.id change.document := by
  induction changes generalizing result with
  | nil => simp
  | cons change rest ih =>
      rw [List.map_cons, List.nodup_cons] at hids
      rw [List.foldl_cons, ih hids.2]
      have hstep : record ∈ K.applyChange result change ↔
          (change.document = record ∧ change.type ≠ .removed) ∨
            record ∈ result ∧ (change.type = .added ∨ K.id record ≠ K.id change.document) := by
        unfold applyChange
        cases htype : change.type <;> simp [mem_insert, mem_erase, eq_comm]
      -- a record that this change brings is not touched by the others
      have hkept : change.document = record → ∀ other ∈ rest, other.type = .added ∨
          K.id record ≠ K.id other.document := by
        rintro rfl other hother
        exact .inr fun heq => hids.1 (List.mem_map.mpr ⟨other, hother, heq.symm⟩)
      rw [hstep]
      simp only [List.mem_cons, forall_eq_or_imp, exists_eq_or_imp]
      constructor
      · rintro (hbrought | ⟨hbrought | ⟨hrecord, hfirst⟩, hrest⟩)
        · exact .inl (.inr hbrought)
        · exact .inl (.inl hbrought)
        · exact .inr ⟨hrecord, hfirst, hrest⟩
      · rintro ((hbrought | hbrought) | ⟨hrecord, hfirst, hrest⟩)
        · exact .inr ⟨.inl hbrought, hkept hbrought.1⟩
        · exact .inl hbrought
        · exact .inr ⟨.inr ⟨hrecord, hfirst⟩, hrest⟩

/-! ### Positions -/

omit [LinearOrder κ] in
/-- Erasing a record by its ID is erasing it at its position. -/
theorem erase_eq_eraseIdx {result : List α} {id : ι} {index : ℕ} (hids : (result.map K.id).Nodup)
    (hindex : result.findIdx? (fun record => K.id record = id) = some index) :
    K.erase result id = result.eraseIdx index := by
  induction result generalizing index with
  | nil => simp at hindex
  | cons record rest ih =>
      obtain ⟨hfresh, hrest⟩ := List.nodup_cons.mp hids
      rw [List.findIdx?_cons] at hindex
      split at hindex
      · rename_i hid
        obtain rfl : 0 = index := Option.some.inj hindex
        have hid : K.id record = id := by simpa using hid
        subst hid
        have hkept : rest.filter (fun other => K.id other ≠ K.id record) = rest := by
          refine List.filter_eq_self.mpr fun other hother => ?_
          simpa using fun heq => hfresh (List.mem_map.mpr ⟨other, hother, heq⟩)
        simpa [erase] using hkept
      · rename_i hid
        obtain ⟨next, hnext, rfl⟩ := Option.map_eq_some_iff.mp hindex
        have hid : K.id record ≠ id := by simpa using hid
        simpa [erase, hid] using ih hrest hnext

/-- Sorting a new record in is inserting it at the position where it is found
afterwards. -/
theorem insert_eq_insertIdx {result : List α} {record : α} {index : ℕ}
    (hnew : K.id record ∉ result.map K.id)
    (hindex : (K.insert result record).findIdx? (fun other => K.id other = K.id record) =
      some index) : K.insert result record = result.insertIdx index record := by
  unfold insert at hindex ⊢
  induction result generalizing index with
  | nil =>
      obtain rfl : 0 = index := by simpa using hindex
      rfl
  | cons head rest ih =>
      rw [List.map_cons, List.mem_cons, not_or] at hnew
      rw [List.orderedInsert_cons] at hindex ⊢
      split
      · rename_i hle
        rw [if_pos hle, List.findIdx?_cons, if_pos (by simp)] at hindex
        obtain rfl : 0 = index := Option.some.inj hindex
        rfl
      · rename_i hle
        rw [if_neg hle, List.findIdx?_cons, if_neg (by simpa using Ne.symm hnew.1)] at hindex
        obtain ⟨next, hnext, rfl⟩ := Option.map_eq_some_iff.mp hindex
        rw [ih hnew.2 hnext]
        rfl

/-- Changes that bring every new record, name every record that is gone and leave
the others alone turn the first result into the second. -/
theorem foldl_applyChange_eq {changes : List (Change α)} {first second : List α}
    (hfirst : K.Ordered first) (hsecond : K.Ordered second) (hvalid : K.ValidChanges first changes)
    (hbrought : ∀ change ∈ changes, change.type ≠ .removed → change.document ∈ second)
    (hremoved : ∀ change ∈ changes, change.type = .removed →
      K.id change.document ∉ second.map K.id)
    (huntouched : ∀ record, (∀ change ∈ changes, K.id record ≠ K.id change.document) →
      (record ∈ first ↔ record ∈ second)) :
    changes.foldl K.applyChange first = second := by
  refine (hfirst.foldl hvalid).ext hsecond fun record => ?_
  rw [mem_foldl_applyChange hvalid.ids]
  by_cases htouched : ∃ change ∈ changes, K.id record = K.id change.document
  · obtain ⟨change, hchange, hid⟩ := htouched
    constructor
    · rintro (⟨other, hother, rfl, htype⟩ | ⟨hrecord, hkept⟩)
      · exact hbrought other hother htype
      · have hadded := (hkept change hchange).resolve_right (not_not.mpr hid)
        have hnew := hvalid.valid change hchange
        unfold ValidChange at hnew
        rw [hadded] at hnew
        exact absurd (List.mem_map.mpr ⟨record, hrecord, hid⟩) hnew
    · intro hrecord
      left
      have htype : change.type ≠ .removed := fun htype =>
        hremoved change hchange htype (List.mem_map.mpr ⟨record, hrecord, hid⟩)
      exact ⟨change, hchange,
        (hsecond.eq_of_id hrecord (hbrought change hchange htype) hid).symm, htype⟩
  · have hnone : ∀ change ∈ changes, K.id record ≠ K.id change.document :=
      fun change hchange hid => htouched ⟨change, hchange, hid⟩
    rw [← huntouched record hnone]
    constructor
    · rintro (⟨change, hchange, rfl, _⟩ | ⟨hrecord, _⟩)
      · exact absurd rfl (hnone change hchange)
      · exact hrecord
    · exact fun hrecord => .inr ⟨hrecord, fun change hchange => .inr (hnone change hchange)⟩

/-! ### Results that only grow -/

omit [DecidableEq ι] [LinearOrder κ] in
/-- Records with distinct IDs stay apart in what tells their IDs. -/
theorem nodup_map_of_ids {f : α → β}
    (hf : ∀ first second, f first = f second → K.id first = K.id second) {records : List α}
    (hids : (records.map K.id).Nodup) : (records.map f).Nodup :=
  List.pairwise_map.mpr
    ((List.pairwise_map.mp hids).imp fun hne heq => hne (hf _ _ heq))

omit [DecidableEq ι] [LinearOrder κ] in
theorem mem_addedBy {p : α → Prop} [DecidablePred p] {changes : List (Change α)} {record : α} :
    record ∈ addedBy p changes ↔
      ∃ change ∈ changes, change.document = record ∧ change.type = .added ∧ p record := by
  simp only [addedBy, List.mem_map, List.mem_filter, decide_eq_true_eq]
  constructor
  · rintro ⟨change, ⟨hchange, htype, hp⟩, rfl⟩
    exact ⟨change, hchange, rfl, htype, hp⟩
  · rintro ⟨change, hchange, rfl, htype, hp⟩
    exact ⟨change, ⟨hchange, htype, hp⟩, rfl⟩

omit [DecidableEq ι] [LinearOrder κ] in
theorem ValidChanges.notMem_of_addedBy {p : α → Prop} [DecidablePred p]
    {changes : List (Change α)} {result : List α} (hvalid : K.ValidChanges result changes)
    {record : α} (hrecord : record ∈ addedBy p changes) : K.id record ∉ result.map K.id := by
  obtain ⟨change, hchange, rfl, htype, -⟩ := mem_addedBy.mp hrecord
  have hnew := hvalid.valid change hchange
  unfold ValidChange at hnew
  rwa [htype] at hnew

/-- If no record is lost, and none is altered but in what `f` does not tell, then the new
records with a property are the old ones and those that were added, in some order and
up to `f`. -/
theorem perm_filter_foldl_applyChange {p : α → Prop} [DecidablePred p] {f : α → β}
    (hf : ∀ first second, f first = f second → K.id first = K.id second)
    (hp : ∀ first second, f first = f second → (p first ↔ p second))
    {changes : List (Change α)} {result : List α} (hordered : K.Ordered result)
    (hvalid : K.ValidChanges result changes)
    (hkept : ∀ record ∈ result, f record ∈ (changes.foldl K.applyChange result).map f) :
    (((changes.foldl K.applyChange result).filter fun record => decide (p record)).map f).Perm
      ((result.filter (fun record => decide (p record)) ++ addedBy p changes).map f) := by
  have hfinal := hordered.foldl hvalid
  have hnodup : ((changes.foldl K.applyChange result).filter
      fun record => decide (p record)).map K.id |>.Nodup :=
    hfinal.ids.sublist (List.filter_sublist.map _)
  have hnodup' : ((result.filter (fun record => decide (p record)) ++ addedBy p changes).map
      K.id).Nodup := by
    rw [List.map_append]
    refine List.Nodup.append (hordered.ids.sublist (List.filter_sublist.map _)) ?_ ?_
    · rw [addedBy, List.map_map]
      exact hvalid.ids.sublist (List.filter_sublist.map _)
    · intro id hid hadded
      obtain ⟨record, hrecord, rfl⟩ := List.mem_map.mp hadded
      exact hvalid.notMem_of_addedBy hrecord
        (List.map_subset _ (List.filter_subset_self _) hid)
  refine (List.perm_ext_iff_of_nodup (nodup_map_of_ids hf hnodup)
    (nodup_map_of_ids hf hnodup')).mpr fun told => ?_
  simp only [List.mem_map, List.mem_append, List.mem_filter, decide_eq_true_eq]
  constructor
  · rintro ⟨record, ⟨hrecord, hholds⟩, rfl⟩
    rcases (mem_foldl_applyChange hvalid.ids).mp hrecord with
      ⟨change, hchange, rfl, htype⟩ | ⟨hold, -⟩
    · cases hkind : change.type with
      | added => exact ⟨_, .inr (mem_addedBy.mpr ⟨change, hchange, rfl, hkind, hholds⟩), rfl⟩
      | removed => exact absurd hkind htype
      | modified =>
          -- the record with this ID is still there, so it is the modified one
          have hold := hvalid.valid change hchange
          unfold ValidChange at hold
          rw [hkind] at hold
          obtain ⟨old, hmem, hid⟩ := List.mem_map.mp hold
          obtain ⟨later, hlater, hsame⟩ := List.mem_map.mp (hkept old hmem)
          obtain rfl := hfinal.eq_of_id hlater hrecord ((hf _ _ hsame).trans hid)
          exact ⟨old, .inl ⟨hmem, (hp _ _ hsame).mp hholds⟩, hsame.symm⟩
    · exact ⟨record, .inl ⟨hold, hholds⟩, rfl⟩
  · rintro ⟨record, ⟨hold, hholds⟩ | hadded, rfl⟩
    · obtain ⟨later, hlater, hsame⟩ := List.mem_map.mp (hkept record hold)
      exact ⟨later, ⟨hlater, (hp _ _ hsame).mpr hholds⟩, hsame⟩
    · obtain ⟨change, hchange, rfl, htype, hholds⟩ := mem_addedBy.mp hadded
      have hmem : change.document ∈ changes.foldl K.applyChange result :=
        (mem_foldl_applyChange hvalid.ids).mpr (.inl ⟨change, hchange, rfl, by simp [htype]⟩)
      exact ⟨_, ⟨hmem, hholds⟩, rfl⟩

/-- The result after several lists of changes. -/
def replay (K : Keying α ι κ) (lists : List (List (Change α))) : List α :=
  lists.foldl (fun result changes => changes.foldl K.applyChange result) []

/-- Every list of changes is valid for the result before it. -/
def ValidReplay (K : Keying α ι κ) (lists : List (List (Change α))) : Prop :=
  ∀ earlier changes rest, lists = earlier ++ changes :: rest →
    K.ValidChanges (K.replay earlier) changes

theorem replay_concat (lists : List (List (Change α))) (changes : List (Change α)) :
    K.replay (lists ++ [changes]) = changes.foldl K.applyChange (K.replay lists) := by
  simp [replay]

theorem ValidReplay.concat {lists : List (List (Change α))} (hvalid : K.ValidReplay lists)
    {changes : List (Change α)} (hchanges : K.ValidChanges (K.replay lists) changes) :
    K.ValidReplay (lists ++ [changes]) := by
  intro earlier next rest hsplit
  rcases List.eq_nil_or_concat rest with rfl | ⟨init, last, rfl⟩
  · obtain ⟨rfl, hnext⟩ := List.append_inj' hsplit rfl
    obtain rfl := List.singleton_inj.mp hnext
    exact hchanges
  · refine hvalid earlier next init ?_
    have hsplit' : lists ++ [changes] = (earlier ++ next :: init) ++ [last] := by
      rw [hsplit]
      simp
    exact (List.append_inj' hsplit' rfl).1

end Keying

/-- Records with distinct IDs, sorted by their keys. -/
structure KeyedSet (K : Keying α ι κ) where
  records : List α
  ordered : K.Ordered records

namespace KeyedSet

variable {K : Keying α ι κ}

def empty : KeyedSet K := ⟨[], .nil, .nil⟩

def get (set : KeyedSet K) (id : ι) : Option α :=
  set.records.find? fun record => K.id record = id

def erase (set : KeyedSet K) (id : ι) : KeyedSet K :=
  ⟨K.erase set.records id, set.ordered.erase id⟩

/-- Removes any record with the same ID first. -/
def insert (set : KeyedSet K) (record : α) : KeyedSet K :=
  ⟨K.insert (set.erase (K.id record)).records record,
    (set.erase (K.id record)).ordered.insert (Keying.id_notMem_erase _ _)⟩

def indexOf (set : KeyedSet K) (id : ι) : Option ℕ :=
  set.records.findIdx? fun record => K.id record = id

theorem get_eq_some_iff {set : KeyedSet K} {id : ι} {record : α} :
    set.get id = some record ↔ record ∈ set.records ∧ K.id record = id := by
  constructor
  · intro hget
    exact ⟨List.mem_of_find?_eq_some hget, by simpa using List.find?_some hget⟩
  · rintro ⟨hmem, hid⟩
    obtain ⟨other, hother⟩ : ∃ other, set.get id = some other := by
      refine Option.isSome_iff_exists.mp (List.find?_isSome.mpr ⟨record, hmem, ?_⟩)
      simpa using hid
    have hid' : K.id other = id := by simpa using List.find?_some hother
    rw [hother, set.ordered.eq_of_id (List.mem_of_find?_eq_some hother) hmem (hid'.trans hid.symm)]

theorem get_eq_none_iff {set : KeyedSet K} {id : ι} :
    set.get id = none ↔ id ∉ set.records.map K.id := by
  rw [Option.eq_none_iff_forall_ne_some]
  simp only [ne_eq, get_eq_some_iff, List.mem_map, not_exists]

theorem id_of_get {set : KeyedSet K} {id : ι} {record : α} (hget : set.get id = some record) :
    K.id record = id :=
  (get_eq_some_iff.mp hget).2

/-- Lookups determine the set. -/
theorem ext_get {first second : KeyedSet K} (hget : ∀ id, first.get id = second.get id) :
    first = second := by
  have hrecords : first.records = second.records := by
    refine first.ordered.ext second.ordered fun record => ?_
    have hiff := (Option.ext_iff.mp (hget (K.id record))) record
    rw [get_eq_some_iff, get_eq_some_iff] at hiff
    simpa using hiff
  cases first
  cases second
  cases hrecords
  rfl

@[simp] theorem get_empty (id : ι) : (empty : KeyedSet K).get id = none := rfl

theorem get_erase (set : KeyedSet K) (id other : ι) :
    (set.erase id).get other = if other = id then none else set.get other := by
  apply Option.ext
  intro record
  have hmem : (set.erase id).get other = some record ↔
      (record ∈ set.records ∧ K.id record ≠ id) ∧ K.id record = other := by
    rw [get_eq_some_iff]
    exact and_congr_left fun _ => Keying.mem_erase
  rw [hmem]
  split
  · rename_i heq
    subst heq
    simp only [reduceCtorEq, iff_false]
    rintro ⟨⟨_, hne⟩, hid⟩
    exact hne hid
  · rename_i hne
    rw [get_eq_some_iff]
    constructor
    · rintro ⟨⟨hrecord, _⟩, hid⟩
      exact ⟨hrecord, hid⟩
    · rintro ⟨hrecord, hid⟩
      exact ⟨⟨hrecord, fun heq => hne (hid.symm.trans heq)⟩, hid⟩

theorem get_insert (set : KeyedSet K) (record : α) (id : ι) :
    (set.insert record).get id = if id = K.id record then some record else set.get id := by
  apply Option.ext
  intro other
  have hmem : (set.insert record).get id = some other ↔
      (other = record ∨ (other ∈ set.records ∧ K.id other ≠ K.id record)) ∧ K.id other = id := by
    rw [get_eq_some_iff]
    refine and_congr_left fun _ => ?_
    exact Keying.mem_insert.trans (or_congr_right Keying.mem_erase)
  rw [hmem]
  split
  · rename_i heq
    subst heq
    constructor
    · rintro ⟨rfl | ⟨_, hne⟩, hid⟩
      · rfl
      · exact absurd hid hne
    · rintro heq
      obtain rfl := Option.some.inj heq
      exact ⟨.inl rfl, rfl⟩
  · rename_i hne
    rw [get_eq_some_iff]
    constructor
    · rintro ⟨rfl | ⟨hother, _⟩, hid⟩
      · exact absurd hid.symm hne
      · exact ⟨hother, hid⟩
    · rintro ⟨hother, hid⟩
      exact ⟨.inr ⟨hother, fun heq => hne (hid.symm.trans heq)⟩, hid⟩

theorem length_erase {set : KeyedSet K} {id : ι} {record : α} (hget : set.get id = some record) :
    (set.erase id).records.length + 1 = set.records.length := by
  obtain ⟨hrecord, rfl⟩ := get_eq_some_iff.mp hget
  conv_rhs => rw [← Keying.insert_erase_self set.ordered hrecord]
  exact (List.orderedInsert_length _ _ _).symm

end KeyedSet

end Pompom.Lib
