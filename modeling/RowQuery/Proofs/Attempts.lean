import Mathlib.Data.List.Forall2

/-! # Attempts

An attempt gives a value or fails. Conditions, filters and projections make attempts one after the
other, and what they report is the failure of the first one that fails:
`RowQuery.Attempt.FirstFailure` says so without mentioning the order of evaluation, and
`RowQuery.Attempt.mapM_eq_error_iff` is the law for a traversal of a list.
`RowQuery.Attempt.FailsOnly` bounds the failures that an attempt may report.
-/

namespace RowQuery.Attempt

variable {α β ε : Type}

/-- Whether an attempt gives a value. -/
def Succeeds (attempt : Except ε α) : Prop :=
  ∃ value, attempt = .ok value

/-- Whether an attempt gives none. -/
def Fails (attempt : Except ε α) : Prop :=
  ∃ failure, attempt = .error failure

theorem succeeds_or_fails (attempt : Except ε α) : Succeeds attempt ∨ Fails attempt := by
  cases attempt with
  | ok value => exact .inl ⟨value, rfl⟩
  | error failure => exact .inr ⟨failure, rfl⟩

theorem Succeeds.not_error {attempt : Except ε α} (succeeds : Succeeds attempt) (failure : ε) :
    attempt ≠ .error failure := by
  obtain ⟨value, same⟩ := succeeds
  rw [same]
  exact nofun

theorem not_succeeds_iff {attempt : Except ε α} : ¬ Succeeds attempt ↔ Fails attempt := by
  constructor
  · exact (succeeds_or_fails attempt).resolve_left
  · intro fails succeeds
    obtain ⟨failure, same⟩ := fails
    exact succeeds.not_error failure same

theorem not_fails_iff {attempt : Except ε α} : ¬ Fails attempt ↔ Succeeds attempt := by
  rw [← not_succeeds_iff, not_not]

/-! ### One attempt after another -/

theorem bind_eq_ok_iff {attempt : Except ε α} {next : α → Except ε β} {value : β} :
    (attempt >>= next) = .ok value ↔ ∃ found, attempt = .ok found ∧ next found = .ok value := by
  cases attempt with
  | ok found => simp only [bind, Except.bind, Except.ok.injEq, exists_eq_left']
  | error failure => simp only [bind, Except.bind, reduceCtorEq, false_and, exists_false]

theorem bind_eq_error_iff {attempt : Except ε α} {next : α → Except ε β} {failure : ε} :
    (attempt >>= next) = .error failure ↔
      attempt = .error failure ∨ ∃ found, attempt = .ok found ∧ next found = .error failure := by
  cases attempt with
  | ok found =>
      simp only [bind, Except.bind, reduceCtorEq, Except.ok.injEq, exists_eq_left', false_or]
  | error other =>
      simp only [bind, Except.bind, Except.error.injEq, reduceCtorEq, false_and, exists_false,
        or_false]

theorem pure_eq_ok_iff {value other : α} :
    (pure value : Except ε α) = .ok other ↔ value = other := by
  simp only [pure, Except.pure, Except.ok.injEq]

theorem pure_ne_error {value : α} {failure : ε} : (pure value : Except ε α) ≠ .error failure :=
  nofun

theorem succeeds_map_iff {attempt : Except ε α} {f : α → β} :
    Succeeds (attempt.map f) ↔ Succeeds attempt := by
  cases attempt with
  | ok value => exact ⟨fun _ => ⟨value, rfl⟩, fun _ => ⟨f value, rfl⟩⟩
  | error failure => exact ⟨nofun, nofun⟩

theorem map_eq_ok_iff {attempt : Except ε α} {f : α → β} {value : β} :
    attempt.map f = .ok value ↔ ∃ found, attempt = .ok found ∧ f found = value := by
  cases attempt with
  | ok found => simp only [Except.map, Except.ok.injEq, exists_eq_left']
  | error failure => simp only [Except.map, reduceCtorEq, false_and, exists_false]

theorem map_eq_error_iff {attempt : Except ε α} {f : α → β} {failure : ε} :
    attempt.map f = .error failure ↔ attempt = .error failure := by
  cases attempt with
  | ok found => simp only [Except.map, reduceCtorEq]
  | error other => simp only [Except.map, Except.error.injEq]

/-! ### Decisions -/

/-- Inverting a decision can be taken back. -/
theorem map_bne_eq_ok_iff {attempt : Except ε Bool} {negated decision : Bool} :
    attempt.map (· != negated) = .ok decision ↔ attempt = .ok (decision != negated) := by
  rw [map_eq_ok_iff]
  constructor
  · rintro ⟨found, same, rfl⟩
    rw [same, Bool.bne_assoc, bne_self_eq_false, Bool.bne_false]
  · intro same
    exact ⟨_, same, by rw [Bool.bne_assoc, bne_self_eq_false, Bool.bne_false]⟩

/-- Whether an attempt gives a decision exactly if it is ready to, and then decides a question. -/
def Decides (attempt : Except ε Bool) (ready question : Prop) : Prop :=
  ∀ decision, attempt = .ok decision ↔ ready ∧ (decision = true ↔ question)

section Decisions

variable {attempt : Except ε Bool} {ready question : Prop}

theorem Decides.succeeds_iff (decides : Decides attempt ready question) :
    Succeeds attempt ↔ ready := by
  constructor
  · intro succeeds
    obtain ⟨decision, decided⟩ := succeeds
    exact ((decides decision).mp decided).1
  · intro isReady
    by_cases answer : question
    · exact ⟨true, (decides true).mpr ⟨isReady, iff_of_true rfl answer⟩⟩
    · exact ⟨false, (decides false).mpr ⟨isReady, iff_of_false nofun answer⟩⟩

theorem Decides.eq_ok_true_iff (decides : Decides attempt ready question) :
    attempt = .ok true ↔ ready ∧ question := by
  rw [decides true, iff_true_left rfl]

end Decisions

/-! ### The first failure -/

variable {attempt : α → Except ε β}

/-- The failure of the first item, in order, whose attempt fails. -/
def FirstFailure (attempt : α → Except ε β) (items : List α) (failure : ε) : Prop :=
  ∃ before item after, items = before ++ item :: after ∧
    (∀ earlier ∈ before, Succeeds (attempt earlier)) ∧ attempt item = .error failure

theorem firstFailure_nil (failure : ε) : ¬ FirstFailure attempt [] failure := by
  intro first
  obtain ⟨before, item, after, split, -, -⟩ := first
  exact List.append_ne_nil_of_right_ne_nil before (List.cons_ne_nil item after) split.symm

theorem firstFailure_cons_iff {item : α} {rest : List α} {failure : ε} :
    FirstFailure attempt (item :: rest) failure ↔
      attempt item = .error failure ∨
        Succeeds (attempt item) ∧ FirstFailure attempt rest failure := by
  constructor
  · intro first
    obtain ⟨before, found, after, split, earlier, fails⟩ := first
    cases before with
    | nil =>
        obtain ⟨rfl, rfl⟩ := List.cons.inj split
        exact .inl fails
    | cons first before =>
        obtain ⟨rfl, rfl⟩ := List.cons.inj split
        exact .inr ⟨earlier _ List.mem_cons_self, before, found, after, rfl,
          fun other member => earlier other (List.mem_cons_of_mem _ member), fails⟩
  · rintro (fails | ⟨succeeds, before, found, after, rfl, earlier, fails⟩)
    · exact ⟨[], item, rest, rfl, by simp only [List.not_mem_nil, false_implies, implies_true],
        fails⟩
    · refine ⟨item :: before, found, after, rfl, ?_, fails⟩
      intro other member
      rcases List.mem_cons.mp member with rfl | member
      · exact succeeds
      · exact earlier other member

theorem firstFailure_singleton_iff {item : α} {failure : ε} :
    FirstFailure attempt [item] failure ↔ attempt item = .error failure := by
  rw [firstFailure_cons_iff]
  simp only [firstFailure_nil, and_false, or_false]

/-- The first failure of two lists is that of the first list, or else that of the second. -/
theorem firstFailure_append_iff {first second : List α} {failure : ε} :
    FirstFailure attempt (first ++ second) failure ↔
      FirstFailure attempt first failure ∨
        (∀ item ∈ first, Succeeds (attempt item)) ∧ FirstFailure attempt second failure := by
  induction first with
  | nil =>
      simp only [List.nil_append, firstFailure_nil, List.not_mem_nil, false_implies, implies_true,
        true_and, false_or]
  | cons item rest ih =>
      rw [List.cons_append, firstFailure_cons_iff, firstFailure_cons_iff, ih, List.forall_mem_cons]
      tauto

/-- There is a first failure as soon as there is any. -/
theorem exists_firstFailure_iff {items : List α} :
    (∃ failure, FirstFailure attempt items failure) ↔ ∃ item ∈ items, Fails (attempt item) := by
  constructor
  · intro first
    obtain ⟨failure, before, item, after, rfl, -, fails⟩ := first
    exact ⟨item, List.mem_append_right _ List.mem_cons_self, failure, fails⟩
  · intro some
    obtain ⟨item, member, fails⟩ := some
    induction items with
    | nil => exact absurd member List.not_mem_nil
    | cons first rest ih =>
        rcases succeeds_or_fails (attempt first) with succeeds | ⟨failure, failed⟩
        · rcases List.mem_cons.mp member with rfl | member
          · exact absurd fails (not_fails_iff.mpr succeeds)
          · obtain ⟨failure, found⟩ := ih member
            exact ⟨failure, firstFailure_cons_iff.mpr (.inr ⟨succeeds, found⟩)⟩
        · exact ⟨failure, firstFailure_cons_iff.mpr (.inl failed)⟩

/-! ### Traversals -/

/-- A traversal gives the values of the single attempts, in order. -/
theorem mapM_eq_ok_iff {items : List α} {values : List β} :
    items.mapM attempt = .ok values ↔
      List.Forall₂ (fun item value => attempt item = .ok value) items values := by
  induction items generalizing values with
  | nil => rw [List.mapM_nil, pure_eq_ok_iff, List.forall₂_nil_left_iff, eq_comm]
  | cons item rest ih =>
      simp only [List.mapM_cons, bind_eq_ok_iff, pure_eq_ok_iff, List.forall₂_cons_left_iff]
      constructor
      · intro traversed
        obtain ⟨value, found, others, founds, rfl⟩ := traversed
        exact ⟨value, others, found, ih.mp founds, rfl⟩
      · intro each
        obtain ⟨value, others, found, founds, rfl⟩ := each
        exact ⟨value, found, others, ih.mpr founds, rfl⟩

/-- If each attempt gives a known value under a known condition, so does the traversal. -/
theorem mapM_eq_ok_iff_of_iff {ready : α → Prop} {result : α → β} {items : List α}
    {values : List β}
    (each : ∀ item value, attempt item = .ok value ↔ ready item ∧ value = result item) :
    items.mapM attempt = .ok values ↔
      (∀ item ∈ items, ready item) ∧ values = items.map result := by
  simp only [mapM_eq_ok_iff, each, List.forall₂_and_left]
  refine and_congr_right fun _ => ?_
  rw [eq_comm, ← List.forall₂_eq_eq_eq, List.forall₂_map_left_iff]
  simp only [eq_comm]

theorem mapM_congr {other : α → Except ε β} {items : List α}
    (same : ∀ item ∈ items, attempt item = other item) :
    items.mapM attempt = items.mapM other := by
  induction items with
  | nil => rfl
  | cons item rest ih =>
      obtain ⟨here, later⟩ := List.forall_mem_cons.mp same
      rw [List.mapM_cons, List.mapM_cons, here, ih later]

/-- A traversal gives each item's value at the item's place. -/
theorem getElem?_of_mapM {items : List α} {values : List β} {item : α} {i : Nat}
    (traversed : items.mapM attempt = .ok values) (present : items[i]? = some item) :
    ∃ value, values[i]? = some value ∧ attempt item = .ok value := by
  have each := mapM_eq_ok_iff.mp traversed
  clear traversed
  induction each generalizing i with
  | nil => exact absurd present nofun
  | cons found _ ih =>
      cases i with
      | zero =>
          obtain rfl := Option.some.inj present
          exact ⟨_, rfl, found⟩
      | succ i => exact ih present

theorem mem_iff_of_mapM {items : List α} {values : List β} {value : β}
    (traversed : items.mapM attempt = .ok values) :
    value ∈ values ↔ ∃ item ∈ items, attempt item = .ok value := by
  have each := mapM_eq_ok_iff.mp traversed
  clear traversed
  induction each with
  | nil => simp only [List.not_mem_nil, false_and, exists_false]
  | @cons item first items values found _ ih =>
      have later : value ∈ values ↔ ∃ item ∈ items, attempt item = .ok value := ih
      rw [List.exists_mem_cons_iff, ← later, found, Except.ok.injEq, List.mem_cons, eq_comm]

/-- What holds of all values of a traversal holds of the value of every single attempt. -/
theorem forall_mem_iff_of_mapM {items : List α} {values : List β} {property : β → Prop}
    (traversed : items.mapM attempt = .ok values) :
    (∀ value ∈ values, property value) ↔
      ∀ item ∈ items, ∃ value, attempt item = .ok value ∧ property value := by
  have each := mapM_eq_ok_iff.mp traversed
  clear traversed
  induction each with
  | nil => simp only [List.not_mem_nil, false_implies, implies_true]
  | cons found _ ih =>
      rw [List.forall_mem_cons, List.forall_mem_cons, found]
      simp only [Except.ok.injEq, exists_eq_left']
      exact and_congr_right fun _ => ih

/-- A traversal succeeds if every single attempt does. -/
theorem succeeds_mapM_iff {items : List α} :
    Succeeds (items.mapM attempt) ↔ ∀ item ∈ items, Succeeds (attempt item) := by
  induction items with
  | nil =>
      simp only [List.mapM_nil, List.not_mem_nil, false_implies, implies_true, iff_true]
      exact ⟨[], rfl⟩
  | cons item rest ih =>
      rw [List.forall_mem_cons, ← ih]
      simp only [Succeeds, List.mapM_cons, bind_eq_ok_iff, pure_eq_ok_iff]
      constructor
      · intro traversed
        obtain ⟨_, value, found, others, founds, -⟩ := traversed
        exact ⟨⟨value, found⟩, others, founds⟩
      · intro each
        obtain ⟨⟨value, found⟩, others, founds⟩ := each
        exact ⟨_, value, found, others, founds, rfl⟩

/-- A traversal fails as the first attempt that fails. -/
theorem mapM_eq_error_iff {items : List α} {failure : ε} :
    items.mapM attempt = .error failure ↔ FirstFailure attempt items failure := by
  induction items with
  | nil => simp only [List.mapM_nil, pure_ne_error, firstFailure_nil]
  | cons item rest ih =>
      rw [firstFailure_cons_iff, ← ih, List.mapM_cons]
      simp only [bind_eq_error_iff, pure_ne_error, and_false, exists_false, or_false, Succeeds,
        exists_and_right]

/-- Where each attempt of one kind is matched by an attempt of another kind, so is the traversal. -/
theorem mapM_related {γ : Type} {other : α → Except ε γ} {related : β → γ → Prop}
    {items : List α} {values : List β} (traversed : items.mapM attempt = .ok values)
    (matched : ∀ item ∈ items, ∀ value, attempt item = .ok value →
      ∃ found, other item = .ok found ∧ related value found) :
    ∃ founds, items.mapM other = .ok founds ∧ List.Forall₂ related values founds := by
  have each := mapM_eq_ok_iff.mp traversed
  clear traversed
  induction each with
  | nil => exact ⟨[], rfl, .nil⟩
  | cons first _ ih =>
      obtain ⟨here, later⟩ := List.forall_mem_cons.mp matched
      obtain ⟨found, second, same⟩ := here _ first
      obtain ⟨founds, others, each⟩ := ih later
      refine ⟨found :: founds, ?_, .cons same each⟩
      rw [mapM_eq_ok_iff] at others ⊢
      exact .cons second others

theorem mapM_map_each {γ : Type} (f : β → γ) (items : List α) :
    items.mapM (fun item => (attempt item).map f) = (items.mapM attempt).map (List.map f) := by
  induction items with
  | nil => rfl
  | cons item rest ih =>
      rw [List.mapM_cons, List.mapM_cons, ih]
      cases attempt item with
      | error failure => rfl
      | ok value =>
          cases rest.mapM attempt with
          | error failure => rfl
          | ok values => rfl

/-- A traversal of joined lists traverses one list after the other. -/
theorem mapM_flatMap {γ : Type} (parts : γ → List α) (items : List γ) :
    (items.flatMap parts).mapM attempt =
      (items.mapM fun item => (parts item).mapM attempt).map List.flatten := by
  induction items with
  | nil => rfl
  | cons item rest ih =>
      rw [List.flatMap_cons, List.mapM_append, List.mapM_cons, ih]
      cases (parts item).mapM attempt with
      | error failure => rfl
      | ok values =>
          cases rest.mapM fun item => (parts item).mapM attempt with
          | error failure => rfl
          | ok others => rfl

/-- A check of several items passes if every single check does. -/
theorem forM_eq_ok_iff {check : α → Except ε Unit} {items : List α} {done : Unit} :
    items.forM check = .ok done ↔ ∀ item ∈ items, check item = .ok () := by
  induction items with
  | nil => simp only [List.forM, pure_eq_ok_iff, List.not_mem_nil, false_implies, implies_true]
  | cons item rest ih =>
      rw [List.forM, List.forall_mem_cons, ← ih, bind_eq_ok_iff]
      exact ⟨fun ⟨_, passes, others⟩ => ⟨passes, others⟩, fun both => ⟨(), both⟩⟩

/-- A check of several items fails as the first single check that fails. -/
theorem forM_eq_error_iff {check : α → Except ε Unit} {items : List α} {failure : ε} :
    items.forM check = .error failure ↔ FirstFailure check items failure := by
  induction items with
  | nil => simp only [List.forM, pure_ne_error, firstFailure_nil]
  | cons item rest ih =>
      rw [List.forM, firstFailure_cons_iff, ← ih, bind_eq_error_iff]
      simp only [Succeeds, exists_and_right]

/-! ### Bounds on failures -/

/-- Whether an attempt that fails does so with an allowed failure. -/
def FailsOnly (allowed : ε → Prop) (attempt : Except ε α) : Prop :=
  ∀ failure, attempt = .error failure → allowed failure

variable {allowed : ε → Prop}

theorem failsOnly_ok (value : α) : FailsOnly allowed (.ok value : Except ε α) :=
  fun _ => nofun

theorem failsOnly_error {failure : ε} (permitted : allowed failure) :
    FailsOnly allowed (.error failure : Except ε α) := by
  intro other same
  obtain rfl := Except.error.inj same
  exact permitted

theorem FailsOnly.mono {wider : ε → Prop} {attempt : Except ε α}
    (bounded : FailsOnly allowed attempt) (widens : ∀ failure, allowed failure → wider failure) :
    FailsOnly wider attempt :=
  fun failure fails => widens failure (bounded failure fails)

theorem FailsOnly.bind {attempt : Except ε α} {next : α → Except ε β}
    (first : FailsOnly allowed attempt) (second : ∀ value, FailsOnly allowed (next value)) :
    FailsOnly allowed (attempt >>= next) := by
  intro failure fails
  rcases bind_eq_error_iff.mp fails with fails | ⟨value, -, fails⟩
  · exact first failure fails
  · exact second value failure fails

theorem FailsOnly.map {attempt : Except ε α} (bounded : FailsOnly allowed attempt) (f : α → β) :
    FailsOnly allowed (attempt.map f) :=
  fun failure fails => bounded failure (map_eq_error_iff.mp fails)

theorem failsOnly_mapM {items : List α}
    (bounded : ∀ item ∈ items, FailsOnly allowed (attempt item)) :
    FailsOnly allowed (items.mapM attempt) := by
  intro failure fails
  obtain ⟨before, item, after, rfl, -, failed⟩ := mapM_eq_error_iff.mp fails
  exact bounded item (List.mem_append_right _ List.mem_cons_self) failure failed

theorem failsOnly_forM {check : α → Except ε Unit} {items : List α}
    (bounded : ∀ item ∈ items, FailsOnly allowed (check item)) :
    FailsOnly allowed (items.forM check) := by
  intro failure fails
  obtain ⟨before, item, after, rfl, -, failed⟩ := forM_eq_error_iff.mp fails
  exact bounded item (List.mem_append_right _ List.mem_cons_self) failure failed

end RowQuery.Attempt
