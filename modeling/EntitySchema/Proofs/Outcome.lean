/-! # Outcomes of steps that may fail

A sequence of steps succeeds when each of them does; every step that may be refused is taken apart
with these equations. -/

namespace EntitySchema.Outcome

variable {ε ε' α β : Type}

/-- Two steps succeed when the first succeeds and the second does so on its value. -/
theorem bind_eq_ok_iff {first : Except ε α} {next : α → Except ε β} {result : β} :
    (first >>= next) = .ok result ↔ ∃ value, first = .ok value ∧ next value = .ok result := by
  cases first with
  | error error =>
    constructor
    · intro h
      cases h
    · rintro ⟨value, h, -⟩
      cases h
  | ok value =>
    constructor
    · exact fun h => ⟨value, rfl, h⟩
    · rintro ⟨other, same, h⟩
      cases same
      exact h

/-- Rewording an error leaves success as it is. -/
theorem mapError_eq_ok_iff {outcome : Except ε α} {reword : ε → ε'} {value : α} :
    outcome.mapError reword = .ok value ↔ outcome = .ok value := by
  cases outcome with
  | error error => constructor <;> (intro h; cases h)
  | ok other =>
    constructor <;> (intro h; cases h; rfl)

/-- Two steps fail when the first fails, or when the second does so on its value. -/
theorem bind_eq_error_iff {first : Except ε α} {next : α → Except ε β} {error : ε} :
    (first >>= next) = .error error ↔
      first = .error error ∨ ∃ value, first = .ok value ∧ next value = .error error := by
  cases first with
  | error other =>
    constructor
    · intro h
      cases h
      exact .inl rfl
    · rintro (h | ⟨value, h, -⟩)
      · cases h
        rfl
      · cases h
  | ok value =>
    constructor
    · exact fun h => .inr ⟨value, rfl, h⟩
    · rintro (h | ⟨other, same, h⟩)
      · cases h
      · cases same
        exact h

/-- An error that was reworded is the wording of an error. -/
theorem mapError_eq_error_iff {outcome : Except ε α} {reword : ε → ε'} {error : ε'} :
    outcome.mapError reword = .error error ↔
      ∃ other, outcome = .error other ∧ error = reword other := by
  cases outcome with
  | error other =>
    constructor
    · intro h
      cases h
      exact ⟨other, rfl, rfl⟩
    · rintro ⟨same, h, rfl⟩
      cases h
      rfl
  | ok value =>
    constructor
    · intro h
      cases h
    · rintro ⟨other, h, -⟩
      cases h

/-- Rewording the error of two steps is rewording the error of each. -/
theorem mapError_bind {first : Except ε α} {next : α → Except ε β} {reword : ε → ε'} :
    (first >>= next).mapError reword =
      first.mapError reword >>= fun value => (next value).mapError reword := by
  cases first <;> rfl

/-- Steps that hand on a value fail in the same words when each of them does. -/
theorem mapError_foldlM_congr {step other : β → α → Except ε β} {reword : ε → ε'}
    (same : ∀ value item, (step value item).mapError reword = (other value item).mapError reword)
    (items : List α) (start : β) :
    (items.foldlM step start).mapError reword = (items.foldlM other start).mapError reword := by
  induction items generalizing start with
  | nil => rfl
  | cons first rest ih =>
    rw [List.foldlM_cons, List.foldlM_cons, mapError_bind, mapError_bind, same start first]
    simp only [ih]

/-- When steps that hand on a value fail, one of them fails on the value that it is given. -/
theorem exists_of_foldlM_eq_error {step : β → α → Except ε β} {items : List α} {start : β}
    {error : ε} (h : items.foldlM step start = .error error) :
    ∃ item ∈ items, ∃ value, step value item = .error error := by
  induction items generalizing start with
  | nil => cases h
  | cons first rest ih =>
    rw [List.foldlM_cons, bind_eq_error_iff] at h
    rcases h with failed | ⟨value, -, later⟩
    · exact ⟨first, List.mem_cons_self, start, failed⟩
    · obtain ⟨item, inside, found⟩ := ih later
      exact ⟨item, List.mem_cons_of_mem first inside, found⟩

/-- When one step for each item fails, it is the step for one of them that fails. -/
theorem exists_of_mapM_eq_error {step : α → Except ε β} {items : List α} {error : ε}
    (h : items.mapM step = .error error) : ∃ item ∈ items, step item = .error error := by
  induction items with
  | nil => cases h
  | cons first rest ih =>
    rw [List.mapM_cons, bind_eq_error_iff] at h
    rcases h with failed | ⟨value, -, later⟩
    · exact ⟨first, List.mem_cons_self, failed⟩
    · rcases bind_eq_error_iff.1 later with failed | ⟨values, -, absurd⟩
      · obtain ⟨item, inside, found⟩ := ih failed
        exact ⟨item, List.mem_cons_of_mem first inside, found⟩
      · cases absurd

/-- An outcome that passes the test for success has a value, with all that holds of its value. -/
theorem exists_eq_ok_and_of_isOk {outcome : Except ε α} {property : α → Prop}
    (h : outcome.isOk = true) (holds : ∀ value, outcome = .ok value → property value) :
    ∃ value, outcome = .ok value ∧ property value := by
  cases outcome with
  | error error => cases h
  | ok value => exact ⟨value, rfl, holds value rfl⟩

/-- Whether two outcomes are the same error, or values that are related. -/
inductive Related (related : α → β → Prop) : Except ε α → Except ε β → Prop where
  /-- Both have a value. -/
  | ok {value : α} {other : β} (values : related value other) :
      Related related (.ok value) (.ok other)
  /-- Both are one error. -/
  | error (error : ε) : Related related (.error error) (.error error)

/-- When the same is done with related values, related outcomes end alike. -/
theorem Related.bind_eq {γ : Type} {related : α → β → Prop} {first : Except ε α}
    {second : Except ε β} (h : Related related first second) {next : α → Except ε γ}
    {other : β → Except ε γ} (same : ∀ value twin, related value twin → other twin = next value) :
    (second >>= other) = (first >>= next) := by
  cases h with
  | ok values => exact same _ _ values
  | error error => rfl

end EntitySchema.Outcome
