namespace Codebook

-- What it takes for a computation that can fail to give a value.

variable {ε ε' α β : Type}

theorem bind_eq_ok {x : Except ε α} {f : α → Except ε β} {b : β} :
    (x >>= f) = .ok b ↔ ∃ a, x = .ok a ∧ f a = .ok b := by
  cases x with
  | error fault => simp [bind, Except.bind]
  | ok a => simp [bind, Except.bind]

theorem mapError_eq_ok {f : ε → ε'} {x : Except ε α} {a : α} :
    x.mapError f = .ok a ↔ x = .ok a := by
  cases x with
  | error fault =>
      show (.error (f fault) : Except ε' α) = .ok a ↔ _
      simp
  | ok b =>
      show (.ok b : Except ε' α) = .ok a ↔ _
      simp

theorem map_eq_error {f : α → β} {x : Except ε α} {fault : ε} :
    x.map f = .error fault ↔ x = .error fault := by
  cases x <;> simp [Except.map]

theorem toOption_eq_some {x : Except ε α} {a : α} : x.toOption = some a ↔ x = .ok a := by
  cases x <;> simp [Except.toOption]

theorem foldlM_cons_eq_ok {f : β → α → Except ε β} {item : α} {rest : List α} {b last : β} :
    (item :: rest).foldlM f b = .ok last ↔ ∃ next, f b item = .ok next ∧
      rest.foldlM f next = .ok last := by
  rw [List.foldlM_cons]
  exact bind_eq_ok

theorem foldlM_append_eq_ok {f : β → α → Except ε β} {front behind : List α} {b last : β} :
    (front ++ behind).foldlM f b = .ok last ↔ ∃ next, front.foldlM f b = .ok next ∧
      behind.foldlM f next = .ok last := by
  rw [List.foldlM_append]
  exact bind_eq_ok

theorem foldlM_cons_of_eq_ok {f : β → α → Except ε β} {item : α} {b next : β}
    (h : f b item = .ok next) (rest : List α) :
    (item :: rest).foldlM f b = rest.foldlM f next := by
  rw [List.foldlM_cons, h]
  rfl

theorem foldlM_append_of_eq_ok {f : β → α → Except ε β} {front : List α} {b next : β}
    (h : front.foldlM f b = .ok next) (behind : List α) :
    (front ++ behind).foldlM f b = behind.foldlM f next := by
  rw [List.foldlM_append, h]
  rfl

-- Each element gives a value when all together do, and each value is that of an element.
theorem exists_of_mapM_eq_ok {f : α → Except ε β} {items : List α} {values : List β}
    (h : items.mapM f = .ok values) :
    (∀ item ∈ items, ∃ value, f item = .ok value) ∧
      ∀ value ∈ values, ∃ item, f item = .ok value := by
  induction items generalizing values with
  | nil =>
      obtain rfl := Except.ok.inj h
      simp
  | cons item rest ih =>
      rw [List.mapM_cons] at h
      obtain ⟨value, hvalue, h⟩ := bind_eq_ok.mp h
      obtain ⟨others, hothers, h⟩ := bind_eq_ok.mp h
      obtain rfl := Except.ok.inj h
      obtain ⟨hitems, hvalues⟩ := ih hothers
      exact ⟨List.forall_mem_cons.mpr ⟨⟨value, hvalue⟩, hitems⟩,
        List.forall_mem_cons.mpr ⟨⟨item, hvalue⟩, hvalues⟩⟩

end Codebook
