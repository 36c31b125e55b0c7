import Dorsche.Wireless.Types
import Mathlib.Data.List.Forall2
import Mathlib.Data.List.Perm.Subperm

/-!
Which broadcasts `BroadcastConfiguration::validate` accepts.

The two loops of the source carry one table of the indices they have met. `table`
is that table as a function of the indices, so that each loop is described by
what it adds to them, and `WellFormed` is what the loops decide, without a table
and without an order.
-/

namespace Dorsche.Wireless.BroadcastConfiguration

open Dorsche.Lib

/-! ### Well-formed broadcasts -/

/-- The BIS indices of some subgroups, in the order of the loops. -/
def indices (subgroups : List BroadcastSubgroup) : List UInt8 :=
  subgroups.flatMap fun subgroup => subgroup.bis.map (·.bisIndex)

/-- What a subgroup has to satisfy on its own. -/
structure SubgroupWellFormed (subgroup : BroadcastSubgroup) : Prop where
  codec : subgroup.codec.validate = .ok ()
  bis : subgroup.bis ≠ []
  sameCodec : ∀ bis ∈ subgroup.bis, bis.lc3 = subgroup.codec

structure WellFormed (broadcast : BroadcastConfiguration) : Prop where
  broadcastId : broadcast.broadcastId.toNat < 2 ^ 24
  presentationDelay : 0 < broadcast.presentationDelayUs
  pcm : broadcast.pcm.validate = .ok ()
  subgroups : broadcast.subgroups ≠ []
  each : ∀ subgroup ∈ broadcast.subgroups, SubgroupWellFormed subgroup
  distinct : (indices broadcast.subgroups).Nodup
  inRange : ∀ index ∈ indices broadcast.subgroups, 1 ≤ index ∧ index ≤ 31

/-! ### The table of the indices -/

/-- `seen_bis` after some indices. -/
def table (used : List UInt8) : List Bool :=
  (List.range 32).map fun i => decide (UInt8.ofNat i ∈ used)

theorem table_nil : table [] = List.replicate 32 false := by decide

/-- An index that has passed the range check is inside the table. -/
theorem table_get {index : UInt8} {used : List UInt8} (small : index ≤ 31) :
    (table used)[index.toNat]? = some (decide (index ∈ used)) := by
  have inside : index.toNat < 32 := Nat.lt_succ_of_le (UInt8.le_iff_toNat_le.mp small)
  rw [table, List.getElem?_map, List.getElem?_range inside]
  simp

theorem table_set {index : UInt8} {used : List UInt8} (small : index ≤ 31) :
    (table used).set index.toNat true = table (used ++ [index]) := by
  have inside : index.toNat < 32 := Nat.lt_succ_of_le (UInt8.le_iff_toNat_le.mp small)
  apply List.ext_getElem?
  intro i
  rw [List.getElem?_set]
  by_cases same : index.toNat = i
  · subst same
    rw [if_pos rfl, table_get small]
    simp [table, inside]
  · rw [if_neg same, table, table, List.getElem?_map, List.getElem?_map]
    by_cases within : i < 32
    · have other : UInt8.ofNat i ≠ index := by
        rintro rfl
        exact same (UInt8.toNat_ofNat_of_lt' (within.trans (by decide)))
      simp [List.getElem?_range within, other]
    · have past : (List.range 32)[i]? = none := by
        rw [List.getElem?_eq_none_iff, List.length_range]
        exact Nat.le_of_not_lt within
      rw [past]
      rfl

/-! ### The loops -/

/-- The inner loop: every BIS of the subgroup passes, with an index that neither
the table nor an earlier BIS has. -/
theorem validateBis_eq_ok {codec : Lc3Configuration} {used : List UInt8}
    {bis : List BisConfiguration} {out : List Bool} (valid : codec.validate = .ok ()) :
    validateBis codec (table used) bis = .ok out ↔
      out = table (used ++ bis.map (·.bisIndex)) ∧ (∀ b ∈ bis, b.lc3 = codec) ∧
        (∀ index ∈ bis.map (·.bisIndex), 1 ≤ index ∧ index ≤ 31) ∧
        (bis.map (·.bisIndex)).Nodup ∧ ∀ index ∈ bis.map (·.bisIndex), index ∉ used := by
  induction bis generalizing used with
  | nil => simp [validateBis, pure, Except.pure, eq_comm]
  | cons b rest ih =>
      rw [validateBis, bind_eq_ok]
      simp only [ensure_eq_ok, List.map_cons, List.forall_mem_cons, List.nodup_cons]
      constructor
      · rintro ⟨-, range, accepted⟩
        rw [table_get range.2] at accepted
        simp only [bind_eq_ok, ensure_eq_ok, table_set range.2, ih] at accepted
        obtain ⟨-, fresh, -, -, -, codecs, rfl, same, ranges, nodup, unused⟩ := accepted
        have later : b.bisIndex ∉ rest.map (·.bisIndex) := fun mem =>
          unused _ mem (List.mem_append_right _ List.mem_cons_self)
        exact ⟨by rw [List.append_assoc]; rfl, ⟨codecs, same⟩, ⟨range, ranges⟩, ⟨later, nodup⟩,
          of_decide_eq_false fresh,
          fun index mem used => unused _ mem (List.mem_append_left _ used)⟩
      · rintro ⟨rfl, ⟨codecs, same⟩, ⟨range, ranges⟩, ⟨later, nodup⟩, fresh, unused⟩
        refine ⟨(), range, ?_⟩
        rw [table_get range.2]
        simp only [bind_eq_ok, ensure_eq_ok, table_set range.2, ih]
        refine ⟨(), decide_eq_false fresh, (), codecs ▸ valid, (), codecs,
          by rw [List.append_assoc]; rfl, same, ranges, nodup, fun index mem => ?_⟩
        rw [List.mem_append, List.mem_singleton]
        rintro (used' | rfl)
        · exact unused index mem used'
        · exact later mem

/-- The outer loop, over a table that outlives each subgroup. -/
theorem validateSubgroups_eq_ok {used : List UInt8} {subgroups : List BroadcastSubgroup}
    {out : List Bool} :
    validateSubgroups (table used) subgroups = .ok out ↔
      out = table (used ++ indices subgroups) ∧
        (∀ subgroup ∈ subgroups, SubgroupWellFormed subgroup) ∧
        (∀ index ∈ indices subgroups, 1 ≤ index ∧ index ≤ 31) ∧
        (indices subgroups).Nodup ∧ ∀ index ∈ indices subgroups, index ∉ used := by
  induction subgroups generalizing used with
  | nil => simp [validateSubgroups, indices, pure, Except.pure, eq_comm]
  | cons subgroup rest ih =>
      have split : indices (subgroup :: rest) =
          subgroup.bis.map (·.bisIndex) ++ indices rest := List.flatMap_cons
      rw [split, validateSubgroups]
      simp only [bind_eq_ok, ensure_eq_ok, List.forall_mem_cons, List.forall_mem_append,
        List.nodup_append]
      constructor
      · rintro ⟨_, valid, -, nonempty, seen, inner, outer⟩
        obtain ⟨rfl, same, ranges, nodup, unused⟩ := (validateBis_eq_ok valid).mp inner
        obtain ⟨rfl, each, ranges', nodup', unused'⟩ := ih.mp outer
        refine ⟨by rw [List.append_assoc], ⟨⟨valid, nonempty, same⟩, each⟩, ⟨ranges, ranges'⟩,
          ⟨nodup, nodup', ?_⟩, unused, fun index mem old => ?_⟩
        · rintro index mem _ mem' rfl
          exact unused' index mem' (List.mem_append_right _ mem)
        · exact unused' index mem (List.mem_append_left _ old)
      · rintro ⟨rfl, ⟨first, each⟩, ⟨ranges, ranges'⟩, ⟨nodup, nodup', apart⟩, unused, unused'⟩
        refine ⟨(), first.codec, (), first.bis, _, (validateBis_eq_ok first.codec).mpr
          ⟨rfl, first.sameCodec, ranges, nodup, unused⟩, ih.mpr ⟨by rw [List.append_assoc], each,
            ranges', nodup', fun index mem => ?_⟩⟩
        rw [List.mem_append]
        rintro (old | same)
        · exact unused' index mem old
        · exact apart index same index mem rfl

theorem validate_eq_ok {self : BroadcastConfiguration} :
    self.validate = .ok () ↔ self.WellFormed := by
  have small : self.broadcastId ≤ 0x00ffffff ↔ self.broadcastId.toNat < 2 ^ 24 := by
    rw [UInt32.le_iff_toNat_le]
    exact Nat.lt_succ_iff.symm
  rw [validate, ← table_nil]
  simp only [bind_eq_ok, ensure_eq_ok, small, validateSubgroups_eq_ok, List.nil_append]
  constructor
  · rintro ⟨-, id, -, delay, _, pcm, -, nonempty, _, ⟨rfl, each, ranges, nodup, -⟩, -⟩
    exact ⟨id, delay, pcm, nonempty, each, nodup, ranges⟩
  · rintro ⟨id, delay, pcm, nonempty, each, nodup, ranges⟩
    exact ⟨(), id, (), delay, (), pcm, (), nonempty, _,
      ⟨rfl, each, ranges, nodup, fun _ _ => List.not_mem_nil⟩, rfl⟩

/-! ### Consequences -/

theorem WellFormed.length_le {self : BroadcastConfiguration} (formed : self.WellFormed) :
    (indices self.subgroups).length ≤ 31 := by
  have within : indices self.subgroups ⊆ (List.range' 1 31).map UInt8.ofNat := by
    intro index mem
    obtain ⟨low, high⟩ := formed.inRange index mem
    rw [UInt8.le_iff_toNat_le] at low high
    refine List.mem_map.mpr ⟨index.toNat, List.mem_range'_1.mpr ⟨low, Nat.lt_succ_of_le high⟩, ?_⟩
    exact UInt8.ofNat_toNat
  exact (List.subperm_of_subset formed.distinct within).length_le

/-- A subgroup with its BISes in another order. -/
structure SubgroupRearranges (subgroup other : BroadcastSubgroup) : Prop where
  codec : other.codec = subgroup.codec
  metadata : other.metadata = subgroup.metadata
  bis : subgroup.bis.Perm other.bis

/-- A broadcast with its subgroups, and the BISes within them, in another order. -/
structure Rearranges (broadcast other : BroadcastConfiguration) : Prop where
  rest : other = { broadcast with subgroups := other.subgroups }
  subgroups : ∃ inside, List.Forall₂ SubgroupRearranges broadcast.subgroups inside ∧
    inside.Perm other.subgroups

theorem SubgroupRearranges.wellFormed {subgroup other : BroadcastSubgroup}
    (rearranges : SubgroupRearranges subgroup other) :
    SubgroupWellFormed subgroup ↔ SubgroupWellFormed other := by
  have same : (∀ bis ∈ subgroup.bis, bis.lc3 = subgroup.codec) ↔
      ∀ bis ∈ other.bis, bis.lc3 = other.codec := by
    simp only [rearranges.codec, rearranges.bis.mem_iff]
  have empty : subgroup.bis ≠ [] ↔ other.bis ≠ [] := by
    rw [← List.length_pos_iff, ← List.length_pos_iff, rearranges.bis.length_eq]
  constructor
  · rintro ⟨codec, bis, sameCodec⟩
    exact ⟨rearranges.codec ▸ codec, empty.mp bis, same.mp sameCodec⟩
  · rintro ⟨codec, bis, sameCodec⟩
    exact ⟨rearranges.codec ▸ codec, empty.mpr bis, same.mpr sameCodec⟩

section Rearranged

variable {subgroups inside others : List BroadcastSubgroup}

theorem forall_wellFormed_of_rearranges
    (rearranges : List.Forall₂ SubgroupRearranges subgroups inside) :
    (∀ subgroup ∈ subgroups, SubgroupWellFormed subgroup) ↔
      ∀ subgroup ∈ inside, SubgroupWellFormed subgroup := by
  induction rearranges with
  | nil => rfl
  | cons first _ ih => rw [List.forall_mem_cons, List.forall_mem_cons, first.wellFormed, ih]

theorem indices_perm_of_rearranges
    (rearranges : List.Forall₂ SubgroupRearranges subgroups inside) :
    (indices subgroups).Perm (indices inside) := by
  induction rearranges with
  | nil => exact .refl _
  | cons first _ ih =>
      rw [indices, List.flatMap_cons, indices, List.flatMap_cons]
      exact (first.bis.map _).append ih

theorem Rearranges.wellFormed {self other : BroadcastConfiguration}
    (rearranges : Rearranges self other) : self.WellFormed ↔ other.WellFormed := by
  obtain ⟨rest, inside, reordered, permuted⟩ := rearranges
  have each := (forall_wellFormed_of_rearranges reordered).trans
    (forall_congr' fun subgroup => imp_congr_left permuted.mem_iff)
  have moved : (indices self.subgroups).Perm (indices other.subgroups) :=
    (indices_perm_of_rearranges reordered).trans (permuted.flatMap_right _)
  have some : self.subgroups ≠ [] ↔ other.subgroups ≠ [] := by
    rw [← List.length_pos_iff, ← List.length_pos_iff, reordered.length_eq, permuted.length_eq]
  have ranges : (∀ index ∈ indices self.subgroups, 1 ≤ index ∧ index ≤ 31) ↔
      ∀ index ∈ indices other.subgroups, 1 ≤ index ∧ index ≤ 31 := by
    simp only [moved.mem_iff]
  rw [rest]
  constructor
  · rintro ⟨id, delay, pcm, nonempty, formed, distinct, inRange⟩
    exact ⟨id, delay, pcm, some.mp nonempty, each.mp formed, moved.nodup_iff.mp distinct,
      ranges.mp inRange⟩
  · rintro ⟨id, delay, pcm, nonempty, formed, distinct, inRange⟩
    exact ⟨id, delay, pcm, some.mpr nonempty, each.mpr formed, moved.nodup_iff.mpr distinct,
      ranges.mpr inRange⟩

end Rearranged

/-! ### The table is never left -/

/-- The text of the bounds panic starts with an `i`; no text of a check does. -/
def IsCheck (e : String) : Prop := e.toList.head? ≠ some 'i'

theorem not_isCheck_panic (length index : Nat) :
    ¬ IsCheck s!"index out of bounds: the len is {length} but the index is {index}" := by
  change ¬ IsCheck ("index out of bounds: the len is " ++ _ ++ _ ++ _)
  simp [IsCheck, String.toList_append]

theorem isCheck_pcm (pcm : PcmConfiguration) : ErrorsWith IsCheck pcm.validate := by
  refine errorsWith_bind (errorsWith_ensure ?_) fun _ _ =>
    errorsWith_bind (errorsWith_ensure (by simp [IsCheck])) fun _ _ =>
    errorsWith_bind (errorsWith_ensure (by simp [IsCheck])) fun _ _ =>
    errorsWith_ensure (by simp [IsCheck])
  change IsCheck ("unsupported PCM sample rate " ++ _)
  simp [IsCheck, String.toList_append]

theorem isCheck_lc3 (codec : Lc3Configuration) : ErrorsWith IsCheck codec.validate :=
  errorsWith_bind (errorsWith_ensure (by simp [IsCheck])) fun _ _ =>
    errorsWith_bind (errorsWith_ensure (by simp [IsCheck])) fun _ _ =>
    errorsWith_bind (errorsWith_ensure (by simp [IsCheck])) fun _ _ =>
    errorsWith_ensure (by simp [IsCheck])

theorem isCheck_validateBis {codec : Lc3Configuration} {used : List UInt8}
    {bis : List BisConfiguration} : ErrorsWith IsCheck (validateBis codec (table used) bis) := by
  induction bis generalizing used with
  | nil => exact errorsWith_ok
  | cons b rest ih =>
      rw [validateBis]
      refine errorsWith_bind (errorsWith_ensure (by simp [IsCheck])) fun _ range => ?_
      rw [table_get (ensure_eq_ok.mp range).2]
      refine errorsWith_bind (errorsWith_ensure ?_) fun _ _ =>
        errorsWith_bind (isCheck_lc3 _) fun _ _ =>
        errorsWith_bind (errorsWith_ensure (by simp [IsCheck])) fun _ _ => ?_
      · change IsCheck ("duplicate BIS index " ++ _)
        simp [IsCheck, String.toList_append]
      · rw [table_set (ensure_eq_ok.mp range).2]
        exact ih

theorem isCheck_validateSubgroups {used : List UInt8} {subgroups : List BroadcastSubgroup} :
    ErrorsWith IsCheck (validateSubgroups (table used) subgroups) := by
  induction subgroups generalizing used with
  | nil => exact errorsWith_ok
  | cons subgroup rest ih =>
      rw [validateSubgroups]
      refine errorsWith_bind (isCheck_lc3 _) fun _ valid =>
        errorsWith_bind (errorsWith_ensure (by simp [IsCheck])) fun _ _ =>
        errorsWith_bind isCheck_validateBis fun seen inner => ?_
      rw [((validateBis_eq_ok valid).mp inner).1]
      exact ih

theorem isCheck_validate (self : BroadcastConfiguration) : ErrorsWith IsCheck self.validate := by
  rw [validate, ← table_nil]
  exact errorsWith_bind (errorsWith_ensure (by simp [IsCheck])) fun _ _ =>
    errorsWith_bind (errorsWith_ensure (by simp [IsCheck])) fun _ _ =>
    errorsWith_bind (isCheck_pcm _) fun _ _ =>
    errorsWith_bind (errorsWith_ensure (by simp [IsCheck])) fun _ _ =>
    errorsWith_bind isCheck_validateSubgroups fun _ _ => errorsWith_ok

/-- `validate` accepts exactly the well-formed broadcasts; they have at most 31
BISes, whatever the order of subgroups and BISes, and no broadcast makes it index
`seen_bis` out of bounds. -/
theorem broadcast_wellFormed (self : BroadcastConfiguration) :
    (self.validate = .ok () ↔ self.WellFormed) ∧
      (self.validate = .ok () → (indices self.subgroups).length ≤ 31) ∧
      (∀ other, Rearranges self other → (self.validate = .ok () ↔ other.validate = .ok ())) ∧
      ∀ length index : Nat, self.validate ≠
        .error s!"index out of bounds: the len is {length} but the index is {index}" := by
  refine ⟨validate_eq_ok, fun accepted => (validate_eq_ok.mp accepted).length_le, ?_, ?_⟩
  · intro other rearranges
    rw [validate_eq_ok, validate_eq_ok, rearranges.wellFormed]
  · intro length index panics
    exact not_isCheck_panic length index (isCheck_validate self _ panics)

/-- Two subgroups of one codec, with indices at both ends of the range. -/
def twoSubgroups : BroadcastConfiguration :=
  let codec : Lc3Configuration := ⟨48000, 10000, 100, 1, 1⟩
  let dataPath : DataPathConfiguration := ⟨0, true, 0, [], []⟩
  ⟨0xffffff, false, 40000, ⟨48000, 16, 2, 10000⟩,
    [⟨codec, [], [⟨31, none, codec, dataPath⟩, ⟨2, none, codec, dataPath⟩]⟩,
      ⟨codec, [], [⟨1, none, codec, dataPath⟩]⟩]⟩

theorem broadcast_wellFormed_two_subgroups :
    twoSubgroups.WellFormed ∧ (indices twoSubgroups.subgroups).length = 3 :=
  ⟨(broadcast_wellFormed twoSubgroups).1.mp (by decide +kernel), by decide⟩

end Dorsche.Wireless.BroadcastConfiguration
