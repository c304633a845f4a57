/-! # Named entries in order

The fields of an object and the columns of a row are pairs of a name and an entry. Their order is
the order in which the names first appeared, and `Fields.put` replaces the entry of a known name
where it stands.
-/

namespace RowQuery

/-- Named entries, in the order in which the names first appeared. -/
abbrev Fields (α : Type) := List (String × α)

namespace Fields

variable {α : Type}

/-- The names in order. -/
def names (fields : Fields α) : List String :=
  fields.map Prod.fst

/-- The entry under a name. -/
def get? (fields : Fields α) (name : String) : Option α :=
  fields.lookup name

/-- Store an entry under a name: in the place of the entry already there, else at the end. -/
def put : Fields α → String → α → Fields α
  | [], name, entry => [(name, entry)]
  | (other, old) :: rest, name, entry =>
    if other = name then (other, entry) :: rest else (other, old) :: put rest name entry

/-- Store the entries of a list one after the other. -/
def putAll (fields : Fields α) (entries : List (String × α)) : Fields α :=
  entries.foldl (fun fields entry => fields.put entry.1 entry.2) fields

/-- The fields that a list of possibly repeated names describes: each name stands where it
appeared first and holds the entry given last. -/
def ofList (entries : List (String × α)) : Fields α :=
  putAll [] entries

/-- Storing keeps the names and appends a new one. -/
theorem names_put (fields : Fields α) (name : String) (entry : α) :
    (fields.put name entry).names =
      if name ∈ fields.names then fields.names else fields.names ++ [name] := by
  induction fields with
  | nil => simp [put, names]
  | cons field rest ih =>
    obtain ⟨other, old⟩ := field
    by_cases same : other = name
    · simp [put, names, same]
    · simp only [put, same, ↓reduceIte]
      simp only [names, List.map_cons, List.mem_cons] at ih ⊢
      rw [ih]
      by_cases known : name ∈ rest.map Prod.fst
      · simp [known]
      · simp [known, Ne.symm same]

/-- An entry just stored is found under its name, and every other name holds what it held. -/
theorem get?_put (fields : Fields α) (name other : String) (entry : α) :
    (fields.put name entry).get? other =
      if other = name then some entry else fields.get? other := by
  induction fields with
  | nil =>
    by_cases same : other = name
    · simp [put, get?, same]
    · simp [put, get?, List.lookup_cons, same, beq_eq_false_iff_ne.mpr same]
  | cons field rest ih =>
    obtain ⟨first, old⟩ := field
    simp only [get?] at ih ⊢
    by_cases here : first = name
    · subst here
      by_cases same : other = first <;> simp [put, List.lookup_cons, same, beq_eq_false_iff_ne.mpr]
    · simp only [put, here, ↓reduceIte, List.lookup_cons]
      by_cases found : other = first
      · subst found
        simp [here]
      · simp [beq_eq_false_iff_ne.mpr found, ih]

/-- Storing never makes a name stand twice. -/
theorem nodup_names_put {fields : Fields α} (distinct : fields.names.Nodup) (name : String)
    (entry : α) : (fields.put name entry).names.Nodup := by
  rw [names_put]
  split
  · exact distinct
  · next absent =>
    rw [List.nodup_append]
    exact ⟨distinct, by simp, by
      intro known mem single singleMem same
      rw [List.mem_singleton] at singleMem
      exact absent (singleMem ▸ same ▸ mem)⟩

/-- The names of an assembled list of fields are distinct. -/
theorem nodup_names_ofList (entries : List (String × α)) : (ofList entries).names.Nodup := by
  suffices kept : ∀ fields : Fields α, fields.names.Nodup → (putAll fields entries).names.Nodup from
    kept [] List.nodup_nil
  induction entries with
  | nil => exact fun _ distinct => distinct
  | cons entry rest ih => exact fun fields distinct => ih _ (nodup_names_put distinct _ _)

end Fields

end RowQuery
