import RowQuery.Fields
import Mathlib.Data.List.Forall2

/-! # Assembled fields

Storing a list of named entries one after the other gives every name the place where it appeared
first (`RowQuery.Fields.names_ofList`) and the entry given last (`RowQuery.Fields.get?_ofList`).
-/

namespace RowQuery.Fields

variable {α : Type}

theorem eraseDups_eq_self_of_nodup {names : List String} (distinct : names.Nodup) :
    names.eraseDups = names := by
  induction names with
  | nil => rfl
  | cons name rest ih =>
      obtain ⟨absent, distinct⟩ := List.nodup_cons.mp distinct
      have kept : (rest.filter fun other => !other == name) = rest := by
        rw [List.filter_eq_self]
        intro other member
        have different : other ≠ name := fun same => absent (same ▸ member)
        rw [beq_eq_false_iff_ne.mpr different, Bool.not_false]
      rw [List.eraseDups_cons, kept, ih distinct]

/-- Ahead of further names, storing an entry counts as one more mention of its name. -/
theorem eraseDups_names_put (fields : Fields α) (name : String) (entry : α) (later : List String) :
    ((fields.put name entry).names ++ later).eraseDups =
      (fields.names ++ name :: later).eraseDups := by
  rw [names_put]
  split
  · next known =>
      have dropped : (name :: later).removeAll fields.names = later.removeAll fields.names := by
        rw [List.cons_removeAll, if_neg (by simpa using known)]
      rw [List.eraseDups_append, List.eraseDups_append, dropped]
  · rw [List.append_assoc, List.singleton_append]

/-- Storing entries into fields with distinct names appends the new names once each, in the order of
their first appearance. -/
theorem names_putAll {fields : Fields α} (distinct : fields.names.Nodup)
    (entries : List (String × α)) :
    (fields.putAll entries).names = (fields.names ++ entries.map Prod.fst).eraseDups := by
  induction entries generalizing fields with
  | nil =>
      rw [List.map_nil, List.append_nil, eraseDups_eq_self_of_nodup distinct]
      rfl
  | cons entry rest ih =>
      have stored : (fields.putAll (entry :: rest)).names =
          ((fields.put entry.1 entry.2).names ++ rest.map Prod.fst).eraseDups :=
        ih (nodup_names_put distinct entry.1 entry.2)
      rw [stored, eraseDups_names_put, List.map_cons]

/-- The names of assembled fields are the given names without repetitions, in the order of their
first appearance. -/
theorem names_ofList (entries : List (String × α)) :
    (ofList entries).names = (entries.map Prod.fst).eraseDups := by
  have distinct : (names ([] : Fields α)).Nodup := List.nodup_nil
  exact names_putAll distinct entries

theorem get?_putAll (fields : Fields α) (entries : List (String × α)) (name : String) :
    (fields.putAll entries).get? name = (entries.reverse.lookup name).or (fields.get? name) := by
  induction entries generalizing fields with
  | nil => rfl
  | cons entry rest ih =>
      obtain ⟨first, value⟩ := entry
      have stored : (fields.putAll ((first, value) :: rest)).get? name =
          (rest.reverse.lookup name).or ((fields.put first value).get? name) := ih _
      rw [stored, get?_put, List.reverse_cons, List.lookup_append, Option.or_assoc,
        List.lookup_cons]
      by_cases same : name = first
      · simp only [same, ↓reduceIte, beq_self_eq_true, Option.some_or]
      · simp only [same, ↓reduceIte, beq_eq_false_iff_ne.mpr same, List.lookup_nil, Option.none_or]

/-- Under each name, assembled fields hold the entry given last. -/
theorem get?_ofList (entries : List (String × α)) (name : String) :
    (ofList entries).get? name = entries.reverse.lookup name := by
  have assembled := get?_putAll [] entries name
  have empty : get? ([] : Fields α) name = none := rfl
  rwa [empty, Option.or_none] at assembled

theorem get?_ofList_of_last {before after : List (String × α)} {name : String} (entry : α)
    (last : name ∉ after.map Prod.fst) :
    (ofList (before ++ (name, entry) :: after)).get? name = some entry := by
  have absent : after.reverse.lookup name = none := by
    rw [List.lookup_eq_none_iff]
    intro other member
    have different : name ≠ other.1 := fun same =>
      last (same ▸ List.mem_map_of_mem (List.mem_reverse.mp member))
    exact bne_iff_ne.mpr different
  rw [get?_ofList, List.reverse_append, List.reverse_cons, List.append_assoc,
    List.lookup_append, absent, Option.none_or, List.singleton_append, List.lookup_cons_self]

/-- A property that some item has is the property of a last item. -/
theorem exists_last_where {items : List α} {holds : α → Prop}
    (present : ∃ item ∈ items, holds item) :
    ∃ before item after, items = before ++ item :: after ∧ holds item ∧
      ∀ later ∈ after, ¬ holds later := by
  induction items with
  | nil =>
      obtain ⟨item, member, -⟩ := present
      exact absurd member List.not_mem_nil
  | cons first rest ih =>
      by_cases later : ∃ item ∈ rest, holds item
      · obtain ⟨before, item, after, rfl, held, last⟩ := ih later
        exact ⟨first :: before, item, after, rfl, held, last⟩
      · obtain ⟨item, member, held⟩ := present
        obtain rfl := (List.mem_cons.mp member).resolve_right fun behind =>
          later ⟨item, behind, held⟩
        exact ⟨[], item, rest, rfl, held, fun other behind again => later ⟨other, behind, again⟩⟩

/-- A name that some item has is the name of a last item. -/
theorem exists_last (key : α → String) {items : List α} {name : String}
    (present : name ∈ items.map key) :
    ∃ before item after, items = before ++ item :: after ∧ key item = name ∧
      ∀ later ∈ after, key later ≠ name :=
  exists_last_where (List.mem_map.mp present)

theorem put_of_fresh {fields : Fields α} {name : String} (fresh : name ∉ fields.names) (entry : α) :
    fields.put name entry = fields ++ [(name, entry)] := by
  induction fields with
  | nil => rfl
  | cons field rest ih =>
      obtain ⟨other, old⟩ := field
      obtain ⟨different, later⟩ := List.ne_and_not_mem_of_not_mem_cons fresh
      rw [put, if_neg different.symm, ih later, List.cons_append]

theorem map_of_fresh {fields : Fields α} {name : String} (fresh : name ∉ fields.names) (entry : α) :
    (fields.map fun field => (field.1, if field.1 = name then entry else field.2)) = fields := by
  refine (List.map_congr_left fun field member => ?_).trans (List.map_id fields)
  have different : field.1 ≠ name := fun same => fresh (List.mem_map.mpr ⟨field, member, same⟩)
  rw [if_neg different, id]

/-- Storing under a name that stands among distinct ones changes the entry beside it alone. -/
theorem put_of_known {fields : Fields α} {name : String} (distinct : fields.names.Nodup)
    (known : name ∈ fields.names) (entry : α) :
    fields.put name entry =
      fields.map fun field => (field.1, if field.1 = name then entry else field.2) := by
  induction fields with
  | nil => exact absurd known List.not_mem_nil
  | cons field rest ih =>
      obtain ⟨other, old⟩ := field
      obtain ⟨absent, distinct⟩ := List.nodup_cons.mp distinct
      rw [put, List.map_cons]
      split
      · next same =>
          rw [map_of_fresh (same ▸ absent) entry]
      · next different =>
          have later : name ∈ names rest :=
            (List.mem_cons.mp known).resolve_left (Ne.symm different)
          rw [ih distinct later]

theorem putAll_of_fresh {fields : Fields α} {entries : List (String × α)}
    (distinct : (names (fields ++ entries)).Nodup) : fields.putAll entries = fields ++ entries := by
  induction entries generalizing fields with
  | nil => exact (List.append_nil fields).symm
  | cons entry rest ih =>
      have apart : (fields.names ++ entry.1 :: names rest).Nodup := by
        rwa [names, List.map_append] at distinct
      have fresh : entry.1 ∉ fields.names := fun known =>
        (List.nodup_append.mp apart).2.2 entry.1 known entry.1 List.mem_cons_self rfl
      have stored : fields.putAll (entry :: rest) = (fields ++ [entry]).putAll rest :=
        congrArg (putAll · rest) (put_of_fresh fresh entry.2)
      rw [stored, ih (by rwa [List.append_assoc]), List.append_assoc, List.singleton_append]

/-- Entries with distinct names are fields as they are. -/
theorem ofList_of_nodup {entries : List (String × α)} (distinct : (names entries).Nodup) :
    ofList entries = entries :=
  putAll_of_fresh distinct

/-- Fields with distinct names are determined by the order of their names and by their entries. -/
theorem eq_of_names_of_get? {fields others : Fields α} (distinct : fields.names.Nodup)
    (named : fields.names = others.names)
    (same : ∀ name ∈ fields.names, fields.get? name = others.get? name) : fields = others := by
  induction fields generalizing others with
  | nil => exact (List.map_eq_nil_iff.mp named.symm).symm
  | cons field rest ih =>
      obtain ⟨name, entry⟩ := field
      cases others with
      | nil => exact absurd named (List.cons_ne_nil _ _)
      | cons other others =>
          obtain ⟨label, value⟩ := other
          obtain ⟨rfl, later⟩ := List.cons.inj named
          obtain ⟨absent, distinct⟩ := List.nodup_cons.mp distinct
          have first := same name List.mem_cons_self
          rw [get?, get?, List.lookup_cons_self, List.lookup_cons_self] at first
          obtain rfl := Option.some.inj first
          refine congrArg _ (ih distinct later fun other member => ?_)
          have different : (other == name) = false :=
            beq_eq_false_iff_ne.mpr fun equal => absent (equal ▸ member)
          have both := same other (List.mem_cons_of_mem name member)
          rwa [get?, get?, List.lookup_cons, List.lookup_cons, different] at both

theorem mem_of_get? {fields : Fields α} {name : String} {entry : α}
    (present : fields.get? name = some entry) : (name, entry) ∈ fields := by
  obtain ⟨before, after, rfl, -⟩ := List.lookup_eq_some_iff.mp present
  exact List.mem_append_right before List.mem_cons_self

theorem mem_names_of_get? {fields : Fields α} {name : String} {entry : α}
    (present : fields.get? name = some entry) : name ∈ fields.names :=
  List.mem_map.mpr ⟨(name, entry), mem_of_get? present, rfl⟩

theorem get?_eq_none_iff {fields : Fields α} {name : String} :
    fields.get? name = none ↔ name ∉ fields.names := by
  rw [get?, List.lookup_eq_none_iff, names, List.mem_map, not_exists]
  refine forall_congr' fun field => ?_
  rw [not_and, bne_iff_ne]
  exact imp_congr_right fun _ => ne_comm

/-- Among distinct names, a name gives the entry that stands beside it. -/
theorem get?_eq_some_iff {fields : Fields α} {name : String} {entry : α}
    (distinct : fields.names.Nodup) : fields.get? name = some entry ↔ (name, entry) ∈ fields := by
  refine ⟨mem_of_get?, fun member => ?_⟩
  obtain ⟨before, after, rfl⟩ := List.append_of_mem member
  rw [names, List.map_append, List.map_cons] at distinct
  refine List.lookup_eq_some_iff.mpr ⟨before, after, rfl, fun other earlier => ?_⟩
  have apart := (List.nodup_append.mp distinct).2.2 other.1 (List.mem_map_of_mem earlier) name
    List.mem_cons_self
  exact bne_iff_ne.mpr apart.symm

/-! ### Related fields -/

section Related

variable {β : Type} {related : α → β → Prop}

/-- Whether two lists of entries have the same names in the same order, over related entries. -/
def Related (related : α → β → Prop) : Fields α → Fields β → Prop :=
  List.Forall₂ fun entry other => entry.1 = other.1 ∧ related entry.2 other.2

theorem Related.names {fields : Fields α} {others : Fields β}
    (each : Related related fields others) : fields.names = others.names := by
  induction each with
  | nil => rfl
  | cons first _ ih => exact congrArg₂ List.cons first.1 ih

theorem Related.eq {fields others : Fields α} (each : Related Eq fields others) :
    fields = others := by
  rw [← List.forall₂_eq_eq_eq]
  exact each.imp fun _ _ same => Prod.ext same.1 same.2

theorem Related.put {fields : Fields α} {others : Fields β} {entry : α} {other : β}
    (each : Related related fields others) (name : String) (same : related entry other) :
    Related related (fields.put name entry) (others.put name other) := by
  induction each with
  | nil => exact .cons ⟨rfl, same⟩ .nil
  | @cons field second _ _ first each ih =>
      obtain ⟨label, old⟩ := field
      obtain ⟨_, current⟩ := second
      obtain ⟨rfl, kept⟩ := first
      rw [Fields.put, Fields.put]
      dsimp only
      split
      · exact .cons ⟨rfl, same⟩ each
      · exact .cons ⟨rfl, kept⟩ ih

theorem Related.putAll {entries : List (String × α)} {others : List (String × β)}
    (each : Related related entries others) {fields : Fields α} {stored : Fields β}
    (start : Related related fields stored) :
    Related related (fields.putAll entries) (stored.putAll others) := by
  induction each generalizing fields stored with
  | nil => exact start
  | @cons entry other _ _ first _ ih =>
      obtain ⟨named, same⟩ := first
      have next : Related related (fields.put entry.1 entry.2) (stored.put other.1 other.2) :=
        named ▸ start.put entry.1 same
      exact ih next

theorem Related.ofList {entries : List (String × α)} {others : List (String × β)}
    (each : Related related entries others) :
    Related related (Fields.ofList entries) (Fields.ofList others) :=
  each.putAll .nil

theorem Related.getD {fields : Fields α} {others : Fields β} {missing : α} {absent : β}
    (each : Related related fields others) (default : related missing absent) (name : String) :
    related ((fields.get? name).getD missing) ((others.get? name).getD absent) := by
  induction each with
  | nil => exact default
  | @cons entry other _ _ first _ ih =>
      obtain ⟨label, value⟩ := entry
      obtain ⟨_, found⟩ := other
      obtain ⟨rfl, same⟩ := first
      simp only [get?, List.lookup_cons] at ih ⊢
      by_cases here : name = label
      · simpa only [here, beq_self_eq_true, Option.getD_some] using same
      · simpa only [beq_eq_false_iff_ne.mpr here] using ih

end Related

end RowQuery.Fields
