import Mathlib.Data.List.Induction
import Mathlib.Data.List.Sigma
import Mathlib.Order.Lattice

/-! # Ordered maps

A map as the list of its entries, in the order of the keys. Looking up a key is
Mathlib's `List.dlookup`. The one way to change a map is to alter the value
under one key, which adds the key when it is missing.
-/

namespace OrderedMap

variable {Key Value : Type} [LinearOrder Key]

/-- The keys increase strictly. -/
def Sorted (entries : List ((_ : Key) × Value)) : Prop :=
  entries.Pairwise fun first second => first.1 < second.1

/-- Replace the value under a key by what `change` makes of it. -/
def alter (key : Key) (change : Option Value → Value) :
    List ((_ : Key) × Value) → List ((_ : Key) × Value)
  | [] => [⟨key, change none⟩]
  | ⟨other, value⟩ :: rest =>
      if key < other then ⟨key, change none⟩ :: ⟨other, value⟩ :: rest
      else if key = other then ⟨other, change (some value)⟩ :: rest
      else ⟨other, value⟩ :: alter key change rest

/-- The map of a list of entries; a later entry replaces an earlier one. -/
def ofList (entries : List ((_ : Key) × Value)) : List ((_ : Key) × Value) :=
  entries.foldl (fun fields entry => alter entry.1 (fun _ => entry.2) fields) []

variable {entries : List ((_ : Key) × Value)} {key : Key}

theorem Sorted.nodupKeys (hsorted : Sorted entries) : entries.NodupKeys :=
  List.nodupKeys_iff_pairwise.mpr (hsorted.imp ne_of_lt)

/-- A key below the first one is not there. -/
theorem Sorted.dlookup_eq_none_of_lt {other : Key} {value : Value}
    (hsorted : Sorted (⟨other, value⟩ :: entries)) (hlt : key < other) :
    List.dlookup key (⟨other, value⟩ :: entries) = none := by
  rw [List.dlookup_eq_none, List.ne_key]
  intro entry hentry
  rcases List.mem_cons.mp hentry with rfl | hrest
  · exact hlt.ne
  · exact (hlt.trans (List.rel_of_pairwise_cons hsorted hrest)).ne

/-- Sorted maps with the same value under every key are equal. -/
theorem Sorted.ext {others : List ((_ : Key) × Value)} (hsorted : Sorted entries)
    (hothers : Sorted others)
    (hlookup : ∀ key, List.dlookup key entries = List.dlookup key others) :
    entries = others := by
  have hperm : entries.Perm others := by
    apply List.lookup_ext hsorted.nodupKeys hothers.nodupKeys
    intro key value
    rw [hlookup key]
  refine hperm.eq_of_pairwise ?_ hsorted hothers
  intro first second _ _ hforth hback
  exact absurd hback hforth.asymm

/-! ## Altering one key -/

section Alter

variable {change : Option Value → Value}

/-- Only the altered key is touched. -/
theorem mem_alter {entry : (_ : Key) × Value} (hentry : entry ∈ alter key change entries) :
    entry.1 = key ∨ entry ∈ entries := by
  induction entries with
  | nil =>
      rcases List.mem_singleton.mp hentry with rfl
      exact .inl rfl
  | cons head rest ih =>
      obtain ⟨other, value⟩ := head
      rw [alter] at hentry
      split at hentry
      next =>
        rcases List.mem_cons.mp hentry with rfl | hold
        · exact .inl rfl
        · exact .inr hold
      next =>
        split at hentry
        next heq =>
          rcases List.mem_cons.mp hentry with rfl | hold
          · exact .inl heq.symm
          · exact .inr (List.mem_cons_of_mem _ hold)
        next =>
          rcases List.mem_cons.mp hentry with rfl | htail
          · exact .inr List.mem_cons_self
          · exact (ih htail).imp_right (List.mem_cons_of_mem _)

theorem Sorted.alter (hsorted : Sorted entries) : Sorted (alter key change entries) := by
  induction entries with
  | nil => exact List.pairwise_singleton _ _
  | cons head rest ih =>
      obtain ⟨other, value⟩ := head
      have hrest : ∀ entry ∈ rest, other < entry.1 :=
        fun entry hentry => List.rel_of_pairwise_cons hsorted hentry
      rw [OrderedMap.alter]
      split
      next hlt =>
        refine hsorted.cons ?_
        intro entry hentry
        rcases List.mem_cons.mp hentry with rfl | htail
        · exact hlt
        · exact hlt.trans (hrest entry htail)
      next hnot =>
        split
        next => exact hsorted.of_cons.cons hrest
        next hne =>
          refine (ih hsorted.of_cons).cons ?_
          intro entry hentry
          rcases mem_alter hentry with rfl | hold
          · exact lt_of_le_of_ne (not_lt.mp hnot) (Ne.symm hne)
          · exact hrest entry hold

theorem dlookup_alter_self (hsorted : Sorted entries) :
    List.dlookup key (alter key change entries) = some (change (List.dlookup key entries)) := by
  induction entries with
  | nil => simp [alter]
  | cons head rest ih =>
      obtain ⟨other, value⟩ := head
      rw [alter]
      split
      next hlt => rw [hsorted.dlookup_eq_none_of_lt hlt, List.dlookup_cons_eq]
      next =>
        split
        next heq =>
          subst heq
          rw [List.dlookup_cons_eq, List.dlookup_cons_eq]
        next hne => rw [List.dlookup_cons_ne _ _ hne, List.dlookup_cons_ne _ _ hne,
            ih hsorted.of_cons]

theorem dlookup_alter_of_ne {other : Key} (hne : other ≠ key) :
    List.dlookup other (alter key change entries) = List.dlookup other entries := by
  induction entries with
  | nil => simp [alter, hne]
  | cons head rest ih =>
      obtain ⟨first, value⟩ := head
      rw [alter]
      split
      next => rw [List.dlookup_cons_ne _ _ hne]
      next =>
        split
        next heq =>
          subst heq
          rw [List.dlookup_cons_ne _ _ hne, List.dlookup_cons_ne _ _ hne]
        next =>
          rcases eq_or_ne other first with rfl | hfirst
          · rw [List.dlookup_cons_eq, List.dlookup_cons_eq]
          · rw [List.dlookup_cons_ne _ _ hfirst, List.dlookup_cons_ne _ _ hfirst, ih]

end Alter

/-! ## Maps of entries -/

theorem sorted_ofList (entries : List ((_ : Key) × Value)) : Sorted (ofList entries) := by
  induction entries using List.reverseRecOn with
  | nil => exact List.Pairwise.nil
  | append_singleton entries entry ih =>
      rw [ofList, List.foldl_append]
      exact Sorted.alter ih

theorem mem_of_dlookup_ofList {value : Value}
    (hvalue : List.dlookup key (ofList entries) = some value) : ⟨key, value⟩ ∈ entries := by
  induction entries using List.reverseRecOn with
  | nil => simp [ofList] at hvalue
  | append_singleton entries entry ih =>
      rw [ofList, List.foldl_append] at hvalue
      change List.dlookup key (alter entry.1 (fun _ => entry.2) (ofList entries)) = _ at hvalue
      rcases eq_or_ne key entry.1 with rfl | hne
      · rw [dlookup_alter_self (sorted_ofList entries), Option.some.injEq] at hvalue
        subst hvalue
        exact List.mem_append_right _ List.mem_cons_self
      · rw [dlookup_alter_of_ne hne] at hvalue
        exact List.mem_append_left _ (ih hvalue)

/-- When the keys are distinct, looking up a key gives its entry. -/
theorem dlookup_ofList (hnodup : entries.NodupKeys) (key : Key) :
    List.dlookup key (ofList entries) = List.dlookup key entries := by
  induction entries using List.reverseRecOn with
  | nil => rfl
  | append_singleton entries entry ih =>
      obtain ⟨last, value⟩ := entry
      have hmiddle := List.nodupKeys_middle.mp hnodup
      rw [List.append_nil, List.nodupKeys_cons] at hmiddle
      obtain ⟨hlast, hentries⟩ := hmiddle
      rw [ofList, List.foldl_append, List.dlookup_append]
      change List.dlookup key (alter last (fun _ => value) (ofList entries)) = _
      rcases eq_or_ne key last with rfl | hne
      · rw [dlookup_alter_self (sorted_ofList entries), List.dlookup_eq_none.mpr hlast]
        simp
      · rw [dlookup_alter_of_ne hne, ih hentries, List.dlookup_cons_ne _ _ hne]
        simp

end OrderedMap
