import JustProxy.Foundation.Json

/-! # Merging configurations

`merge` writes one JSON value over another. Where both are objects it goes
through the keys of the second one, below a placeholder null if the first one
lacks the key; everywhere else the second value replaces the first. Looking up
paths of keys says which value the result has where, and that a second merge
finds nothing left to do.
-/

namespace JustProxy

mutual

/-- Write `b` over `a`. -/
def merge : Json → Json → Json
  | .object a, .object b => .object (mergeFields a b)
  | _, b => b

/-- The loop over the fields of `b`: each is merged into the entry of its key,
a new null if there was none. -/
def mergeFields (a : List ((_ : String) × Json)) :
    List ((_ : String) × Json) → List ((_ : String) × Json)
  | [] => a
  | ⟨k, v⟩ :: rest =>
      mergeFields (OrderedMap.alter k (fun entry => merge (entry.getD .null) v) a) rest

end

/-- What is under a key after merging: the old value where there is no new one,
the two merged otherwise. -/
def mergeEntry (old : Option Json) : Option Json → Option Json
  | none => old
  | some new => some (merge (old.getD .null) new)

variable {a b value : Json} {path : List String}

/-- Unless both are objects, the new value replaces the old one. -/
theorem merge_replaces (hpair : ∀ old new, a = .object old → b ≠ .object new) :
    merge a b = b := by
  rw [merge]
  intro old new ha hb
  exact hpair old new ha hb

theorem merge_of_not_object (a : Json) (hb : ∀ new, b ≠ .object new) : merge a b = b :=
  merge_replaces fun _ new _ => hb new

theorem merge_null (b : Json) : merge .null b = b :=
  merge_replaces fun _ _ hnull => nomatch hnull

theorem sorted_mergeFields {a b : List ((_ : String) × Json)} (ha : OrderedMap.Sorted a) :
    OrderedMap.Sorted (mergeFields a b) := by
  induction b generalizing a with
  | nil =>
      rw [mergeFields]
      exact ha
  | cons entry rest ih =>
      rw [mergeFields]
      exact ih ha.alter

/-- The loop touches every key once. -/
theorem dlookup_mergeFields {a b : List ((_ : String) × Json)} (ha : OrderedMap.Sorted a)
    (hb : OrderedMap.Sorted b) (key : String) :
    List.dlookup key (mergeFields a b) =
      mergeEntry (List.dlookup key a) (List.dlookup key b) := by
  induction b generalizing a with
  | nil => rw [mergeFields, List.dlookup_nil, mergeEntry]
  | cons entry rest ih =>
      obtain ⟨k, v⟩ := entry
      rw [mergeFields, ih ha.alter hb.of_cons]
      rcases eq_or_ne key k with rfl | hne
      · -- the later keys are greater, so this entry stays as it is now
        have hrest : List.dlookup key rest = none :=
          List.dlookup_eq_none.mpr (List.notMem_keys_of_nodupKeys_cons hb.nodupKeys)
        rw [hrest, OrderedMap.dlookup_alter_self ha, List.dlookup_cons_eq, mergeEntry, mergeEntry]
      · rw [OrderedMap.dlookup_alter_of_ne hne, List.dlookup_cons_ne _ _ hne]

/-- Merging an object into anything leaves an object; what was no object counts
as one without fields. -/
theorem merge_object (a : Json) {b : List ((_ : String) × Json)} (hb : OrderedMap.Sorted b) :
    merge a (.object b) = .object (mergeFields a.fields b) := by
  by_cases hobject : ∃ old, a = .object old
  · obtain ⟨old, rfl⟩ := hobject
    rw [merge, Json.fields_object]
  · have ha := not_exists.mp hobject
    rw [merge_replaces fun old _ hold => absurd hold (ha old), Json.fields_of_not_object ha]
    refine congrArg Json.object (hb.ext (sorted_mergeFields List.Pairwise.nil) ?_)
    intro key
    rw [dlookup_mergeFields List.Pairwise.nil hb, List.dlookup_nil]
    cases List.dlookup key b with
    | none => rw [mergeEntry]
    | some new => rw [mergeEntry, Option.getD_none, merge_null]

theorem dlookup_fields_merge (ha : a.WellFormed) (hb : b.WellFormed)
    (hobject : b = .object b.fields) (key : String) :
    List.dlookup key (merge a b).fields =
      mergeEntry (List.dlookup key a.fields) (List.dlookup key b.fields) := by
  rw [hobject, merge_object a hb.sorted_fields, Json.fields_object, Json.fields_object,
    dlookup_mergeFields ha.sorted_fields hb.sorted_fields]

theorem mem_keys_mergeFields {a b : List ((_ : String) × Json)} (ha : OrderedMap.Sorted a)
    (hb : OrderedMap.Sorted b) {key : String} :
    key ∈ (mergeFields a b).keys ↔ key ∈ b.keys ∨ key ∈ a.keys := by
  rw [← List.dlookup_isSome, ← List.dlookup_isSome, ← List.dlookup_isSome,
    dlookup_mergeFields ha hb]
  cases List.dlookup key b with
  | none => simp [mergeEntry]
  | some new => simp [mergeEntry]

/-- Merging keeps the fields of every object in order. -/
theorem merge_wellFormed (ha : a.WellFormed) (hb : b.WellFormed) : (merge a b).WellFormed := by
  induction b, hb using Json.WellFormed.objectInduction generalizing a with
  | leaf b hb hleaf => rwa [merge_of_not_object a hleaf]
  | object b hsorted hinner ih =>
      rw [merge_object a hsorted]
      refine .object (sorted_mergeFields ha.sorted_fields) ?_
      intro key value hvalue
      rw [dlookup_mergeFields ha.sorted_fields hsorted] at hvalue
      cases hnew : List.dlookup key b with
      | none =>
          rw [hnew, mergeEntry] at hvalue
          exact ha.of_dlookup hvalue
      | some new =>
          rw [hnew, mergeEntry, Option.some.injEq] at hvalue
          exact hvalue ▸ ih key new hnew (ha.dlookup_getD key)

/-- Merging the same value again changes nothing. -/
theorem merge_again (ha : a.WellFormed) (hb : b.WellFormed) :
    merge (merge a b) b = merge a b := by
  induction b, hb using Json.WellFormed.objectInduction generalizing a with
  | leaf b _ hleaf => rw [merge_of_not_object _ hleaf, merge_of_not_object _ hleaf]
  | object b hsorted _ ih =>
      have hmerged := sorted_mergeFields (b := b) ha.sorted_fields
      rw [merge_object a hsorted, merge_object _ hsorted, Json.fields_object]
      refine congrArg Json.object ((sorted_mergeFields hmerged).ext hmerged ?_)
      intro key
      rw [dlookup_mergeFields hmerged hsorted, dlookup_mergeFields ha.sorted_fields hsorted]
      cases hnew : List.dlookup key b with
      | none => rw [mergeEntry]
      | some new =>
          rw [mergeEntry, mergeEntry, Option.getD_some, ih key new hnew (ha.dlookup_getD key)]

/-! ## Paths -/

section Paths

variable {key : String} (ha : a.WellFormed) (hb : b.WellFormed)

include ha hb

/-- A step of a path along a key that the new value has. -/
theorem get?_merge_step {new : Json} (hnew : List.dlookup key b.fields = some new)
    (path : List String) :
    (merge a b).get? (key :: path) =
      (merge ((List.dlookup key a.fields).getD .null) new).get? path := by
  rw [Json.get?_cons, dlookup_fields_merge ha hb (Json.eq_object_of_dlookup hnew), hnew,
    mergeEntry, Option.bind_some]

/-- Where the new value is no object, merging puts it there. -/
theorem get?_merge_of_not_object (hvalue : b.get? path = some value)
    (hleaf : ∀ fields, value ≠ .object fields) : (merge a b).get? path = some value := by
  induction path generalizing a b with
  | nil =>
      rw [Json.get?_nil, Option.some.injEq] at hvalue
      subst hvalue
      rw [merge_of_not_object a hleaf, Json.get?_nil]
  | cons key path ih =>
      obtain ⟨new, hnew, hvalue⟩ := Json.get?_cons_eq_some.mp hvalue
      rw [get?_merge_step ha hb hnew]
      exact ih (ha.dlookup_getD key) (hb.of_dlookup hnew) hvalue

/-- Where the new value is an object, merging leaves one with the keys of both. -/
theorem get?_merge_object {fields : List ((_ : String) × Json)}
    (hvalue : b.get? path = some (.object fields)) :
    ∃ merged, (merge a b).get? path = some (.object merged) ∧
      ∀ key, key ∈ merged.keys ↔
        key ∈ fields.keys ∨ ∃ old, a.get? path = some (.object old) ∧ key ∈ old.keys := by
  induction path generalizing a b with
  | nil =>
      rw [Json.get?_nil, Option.some.injEq] at hvalue
      subst hvalue
      have hsorted : OrderedMap.Sorted fields := hb.sorted_fields
      refine ⟨mergeFields a.fields fields, ?_, ?_⟩
      · rw [merge_object a hsorted, Json.get?_nil]
      · intro key
        rw [mem_keys_mergeFields ha.sorted_fields hsorted, Json.mem_keys_fields]
        simp
  | cons key path ih =>
      obtain ⟨new, hnew, hvalue⟩ := Json.get?_cons_eq_some.mp hvalue
      obtain ⟨merged, hmerged, hkeys⟩ := ih (ha.dlookup_getD key) (hb.of_dlookup hnew) hvalue
      refine ⟨merged, ?_, ?_⟩
      · rw [get?_merge_step ha hb hnew, hmerged]
      · intro other
        rw [hkeys, Json.get?_cons]
        -- a key that the old value lacks leads below the placeholder
        cases List.dlookup key a.fields with
        | none => simp [Json.get?_null_ne_object]
        | some old => rw [Option.getD_some, Option.bind_some]

/-- Where the new value has an object without the next key, merging keeps what
is below that key in the old one. -/
theorem get?_merge_kept {old new : List ((_ : String) × Json)}
    (hold : a.get? path = some (.object old)) (hnew : b.get? path = some (.object new))
    (hkey : key ∉ new.keys) (rest : List String) :
    (merge a b).get? (path ++ key :: rest) = a.get? (path ++ key :: rest) := by
  induction path generalizing a b with
  | nil =>
      rw [Json.get?_nil, Option.some.injEq] at hold hnew
      subst hold hnew
      have hlookup : List.dlookup key (Json.object new).fields = none :=
        List.dlookup_eq_none.mpr hkey
      rw [List.nil_append, Json.get?_cons, Json.get?_cons, dlookup_fields_merge ha hb rfl,
        hlookup, mergeEntry]
  | cons step path ih =>
      obtain ⟨oldInner, hinner, hold⟩ := Json.get?_cons_eq_some.mp hold
      obtain ⟨newInner, hnewInner, hnew⟩ := Json.get?_cons_eq_some.mp hnew
      rw [List.cons_append, get?_merge_step ha hb hnewInner, Json.get?_cons, hinner,
        Option.getD_some, Option.bind_some]
      exact ih (ha.of_dlookup hinner) (hb.of_dlookup hnewInner) hold hnew

end Paths

/-! ## Merging values -/

/-- `merge` on values, whose objects' fields are in order. -/
def mergeValue (a b : Value) : Value where
  json := merge a.json b.json
  wellFormed := merge_wellFormed a.wellFormed b.wellFormed

/-- What merging `b` into `a` promises at every path of keys, and of a second
merge. -/
structure MergeLaw (a b merged : Value) : Prop where
  leaf : ∀ path value, b.json.get? path = some value → (∀ fields, value ≠ .object fields) →
    merged.json.get? path = some value
  object : ∀ path fields, b.json.get? path = some (.object fields) →
    ∃ inner, merged.json.get? path = some (.object inner) ∧
      ∀ key, key ∈ inner.keys ↔
        key ∈ fields.keys ∨ ∃ old, a.json.get? path = some (.object old) ∧ key ∈ old.keys
  kept : ∀ path key rest old new, a.json.get? path = some (.object old) →
    b.json.get? path = some (.object new) → key ∉ new.keys →
      merged.json.get? (path ++ key :: rest) = a.json.get? (path ++ key :: rest)
  again : mergeValue merged b = merged

theorem mergeLaw (a b : Value) : MergeLaw a b (mergeValue a b) where
  leaf _ _ hvalue hleaf := get?_merge_of_not_object a.wellFormed b.wellFormed hvalue hleaf
  object _ _ hvalue := get?_merge_object a.wellFormed b.wellFormed hvalue
  kept _ _ rest _ _ hold hnew hkey :=
    get?_merge_kept a.wellFormed b.wellFormed hold hnew hkey rest
  again := by
    rw [mergeValue, Value.mk.injEq]
    exact merge_again a.wellFormed b.wellFormed

example :
    merge (.object [⟨"a", .object [⟨"x", .bool true⟩]⟩, ⟨"c", .null⟩])
        (.object [⟨"a", .object [⟨"y", .null⟩]⟩, ⟨"b", .string "new"⟩]) =
      .object [⟨"a", .object [⟨"x", .bool true⟩, ⟨"y", .null⟩]⟩, ⟨"b", .string "new"⟩,
        ⟨"c", .null⟩] := rfl

/-! ## The paths determine the merge -/

/-- What merging promises at every path of keys. -/
structure MergePaths (a b merged : Json) : Prop where
  leaf : ∀ path value, b.get? path = some value → (∀ fields, value ≠ .object fields) →
    merged.get? path = some value
  object : ∀ path fields, b.get? path = some (.object fields) →
    ∃ inner, merged.get? path = some (.object inner) ∧
      ∀ key, key ∈ inner.keys ↔
        key ∈ fields.keys ∨ ∃ old, a.get? path = some (.object old) ∧ key ∈ old.keys
  kept : ∀ path key rest old new, a.get? path = some (.object old) →
    b.get? path = some (.object new) → key ∉ new.keys →
      merged.get? (path ++ key :: rest) = a.get? (path ++ key :: rest)

namespace MergePaths

variable {merged : Json} {key : String}

/-- An object of the old value below a key, or below the placeholder. -/
theorem get?_getD {path : List String} {old : List ((_ : String) × Json)}
    (hold : ((List.dlookup key a.fields).getD .null).get? path = some (.object old))
    (rest : List String) :
    a.get? (key :: rest) = ((List.dlookup key a.fields).getD .null).get? rest := by
  rw [Json.get?_cons]
  cases hinner : List.dlookup key a.fields with
  | none =>
      rw [hinner, Option.getD_none] at hold
      exact absurd hold (Json.get?_null_ne_object path old)
  | some inner => rw [Option.bind_some, Option.getD_some]

/-- An object at a path of the old value, seen from the key that the path starts with. -/
theorem exists_object_getD {path : List String} {other : String} :
    (∃ old, a.get? (key :: path) = some (.object old) ∧ other ∈ old.keys) ↔
      ∃ old, ((List.dlookup key a.fields).getD .null).get? path = some (.object old) ∧
        other ∈ old.keys := by
  constructor
  · rintro ⟨old, hold, hother⟩
    obtain ⟨inner, hinner, hpath⟩ := Json.get?_cons_eq_some.mp hold
    refine ⟨old, ?_, hother⟩
    rw [hinner, Option.getD_some, hpath]
  · rintro ⟨old, hold, hother⟩
    refine ⟨old, ?_, hother⟩
    rw [get?_getD hold, hold]

/-- Under a key of the new value, the same holds of what is below. -/
theorem below {b : List ((_ : String) × Json)} {new : Json}
    (hpaths : MergePaths a (.object b) merged) (hnew : List.dlookup key b = some new) :
    ∃ child, List.dlookup key merged.fields = some child ∧
      MergePaths ((List.dlookup key a.fields).getD .null) new child := by
  obtain ⟨inner, hinner, hkeys⟩ := hpaths.object [] b (Json.get?_nil _)
  rw [Json.get?_nil, Option.some.injEq] at hinner
  have hkey : key ∈ b.keys := List.dlookup_isSome.mp (by rw [hnew, Option.isSome_some])
  obtain ⟨child, hchild⟩ :=
    Option.isSome_iff_exists.mp (List.dlookup_isSome.mpr ((hkeys key).mpr (.inl hkey)))
  rw [hinner]
  have hdown (path : List String) : merged.get? (key :: path) = child.get? path := by
    rw [Json.get?_cons, hinner, Json.fields_object, hchild, Option.bind_some]
  have hup (path : List String) : (Json.object b).get? (key :: path) = new.get? path := by
    rw [Json.get?_cons, Json.fields_object, hnew, Option.bind_some]
  refine ⟨child, hchild, ?_, ?_, ?_⟩
  · intro path value hvalue hleaf
    rw [← hdown]
    exact hpaths.leaf (key :: path) value (by rwa [hup]) hleaf
  · intro path fields hfields
    obtain ⟨other, hother, hothers⟩ := hpaths.object (key :: path) fields (by rwa [hup])
    refine ⟨other, by rwa [← hdown], fun step => ?_⟩
    rw [hothers, exists_object_getD]
  · intro path step rest old fields hold hfields hstep
    rw [← hdown, ← get?_getD hold]
    exact hpaths.kept (key :: path) step rest old fields (by rwa [get?_getD hold]) (by rwa [hup])
      hstep

/-- Induction on the new value: at its leaves the result is the new value, and an object
has the keys of both, under each of which the result is determined. -/
theorem eq_merge (ha : a.WellFormed) (hb : b.WellFormed) (hmerged : merged.WellFormed)
    (hpaths : MergePaths a b merged) : merged = merge a b := by
  induction b, hb using Json.WellFormed.objectInduction generalizing a merged with
  | leaf b hb hleaf =>
      have hsame := hpaths.leaf [] b (Json.get?_nil b) hleaf
      rw [Json.get?_nil, Option.some.injEq] at hsame
      rw [hsame, merge_of_not_object a hleaf]
  | object b hsorted hinner ih =>
      obtain ⟨inner, hobject, hkeys⟩ := hpaths.object [] b (Json.get?_nil _)
      rw [Json.get?_nil, Option.some.injEq] at hobject
      subst hobject
      rw [merge_object a hsorted]
      refine congrArg Json.object (hmerged.sorted_fields.ext
        (sorted_mergeFields ha.sorted_fields) fun key => ?_)
      rw [dlookup_mergeFields ha.sorted_fields hsorted]
      cases hnew : List.dlookup key b with
      | some new =>
          obtain ⟨child, hchild, hbelow⟩ := hpaths.below hnew
          rw [hchild, mergeEntry,
            ih key new hnew (ha.dlookup_getD key) (hmerged.of_dlookup hchild) hbelow]
      | none =>
          have hkey : key ∉ b.keys := List.dlookup_eq_none.mp hnew
          rw [mergeEntry]
          by_cases hold : ∃ old, a = .object old
          · obtain ⟨old, rfl⟩ := hold
            have hkept := hpaths.kept [] key [] old b (Json.get?_nil _) (Json.get?_nil _) hkey
            simpa [Json.get?_cons] using hkept
          · have hnone : key ∉ inner.keys := by
              intro hmem
              rcases (hkeys key).mp hmem with hmem | ⟨old, ha', -⟩
              · exact hkey hmem
              · rw [Json.get?_nil, Option.some.injEq] at ha'
                exact hold ⟨old, ha'⟩
            rw [Json.fields_of_not_object (not_exists.mp hold), List.dlookup_nil]
            exact List.dlookup_eq_none.mpr hnone

end MergePaths

/-- The result of merging is the only value that keeps the promises at every path. -/
theorem mergePaths_iff (a b merged : Value) :
    MergePaths a.json b.json merged.json ↔ merged = mergeValue a b := by
  constructor
  · intro hpaths
    rw [mergeValue, Value.mk.injEq]
    exact hpaths.eq_merge a.wellFormed b.wellFormed merged.wellFormed
  · rintro rfl
    have hlaw := mergeLaw a b
    exact ⟨hlaw.leaf, hlaw.object, hlaw.kept⟩

end JustProxy
