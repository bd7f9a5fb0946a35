import Mathlib.Tactic.SplitIfs
import PanelGemm.Capacity

/-!
# Computations that may fail

How a computation in `Except` that succeeds comes apart into its steps (`bind_eq_ok`), and when a
loop, a required value or a buffer that is asked for succeeds. A computation that has no other
failure than a panic (`MayPanic`) panics as soon as one of its steps does.
-/

set_option autoImplicit false
set_option relaxedAutoImplicit false

namespace PanelGemm

section Steps

variable {α β ε : Type}

@[simp]
theorem ok_bind (value : α) (next : α → Except ε β) : Except.ok value >>= next = next value := rfl

@[simp]
theorem error_bind (failure : ε) (next : α → Except ε β) :
    Except.error failure >>= next = .error failure := rfl

/-- A sequence succeeds if its first part does and what follows does on its value. -/
theorem bind_eq_ok {action : Except ε α} {next : α → Except ε β} {result : β} :
    action >>= next = .ok result ↔ ∃ value, action = .ok value ∧ next value = .ok result := by
  cases action with
  | error failure => exact ⟨nofun, fun ⟨_, hvalue, _⟩ ↦ nomatch hvalue⟩
  | ok value => exact ⟨fun h ↦ ⟨value, rfl, h⟩, fun ⟨_, hvalue, h⟩ ↦ Except.ok.inj hvalue ▸ h⟩

/-- What is mapped succeeds if it did before. -/
theorem map_eq_ok {action : Except ε α} {f : α → β} {result : β} :
    f <$> action = .ok result ↔ ∃ value, action = .ok value ∧ f value = result := by
  cases action with
  | error failure => exact ⟨nofun, fun ⟨_, hvalue, _⟩ ↦ nomatch hvalue⟩
  | ok value =>
    exact ⟨fun h ↦ ⟨value, rfl, Except.ok.inj h⟩,
      fun ⟨_, hvalue, h⟩ ↦ congrArg Except.ok (Except.ok.inj hvalue ▸ h)⟩

/-- What comes after a computation only matters where that succeeds. -/
theorem bind_congr_of_ok {action : Except ε α} {next next' : α → Except ε β}
    (h : ∀ value, action = .ok value → next value = next' value) :
    action >>= next = action >>= next' := by
  cases action with
  | error failure => rfl
  | ok value => exact h value rfl

/-- A list that is computed element by element without a failure. -/
theorem mapM_eq_ok {items : List α} {f : α → Except ε β} {g : α → β}
    (h : ∀ item ∈ items, f item = .ok (g item)) : items.mapM f = .ok (items.map g) := by
  induction items with
  | nil => rfl
  | cons item items ih =>
    rw [List.mapM_cons, h item (by simp), ih fun other hother ↦ h other (by simp [hother])]
    rfl

theorem mapM_congr {items : List α} {f g : α → Except ε β} (h : ∀ item ∈ items, f item = g item) :
    items.mapM f = items.mapM g := by
  induction items with
  | nil => rfl
  | cons item items ih =>
    rw [List.mapM_cons, List.mapM_cons, h item (by simp),
      ih fun other hother ↦ h other (by simp [hother])]

/-- What is known of every element that is computed is known of the list of them. -/
theorem map_of_mapM {γ : Type} {items : List α} {f : α → Except ε β} {results : List β}
    {ofResult : β → γ} {ofItem : α → γ} (h : items.mapM f = .ok results)
    (hf : ∀ item ∈ items, ∀ result, f item = .ok result → ofResult result = ofItem item) :
    results.map ofResult = items.map ofItem := by
  induction items generalizing results with
  | nil =>
    cases h
    rfl
  | cons item items ih =>
    rw [List.mapM_cons] at h
    obtain ⟨first, hfirst, h⟩ := bind_eq_ok.mp h
    obtain ⟨rest, hrest, h⟩ := bind_eq_ok.mp h
    cases h
    rw [List.map_cons, List.map_cons, hf item (by simp) first hfirst,
      ih hrest fun other hother ↦ hf other (by simp [hother])]

theorem length_of_mapM {items : List α} {f : α → Except ε β} {results : List β}
    (h : items.mapM f = .ok results) : results.length = items.length := by
  have hsame : results.map (fun _ ↦ ()) = items.map fun _ ↦ () :=
    map_of_mapM h fun _ _ _ _ ↦ rfl
  simpa using congrArg List.length hsame

/-- Loops that take the same steps over a list are the same. -/
theorem foldlM_congr {m : Type → Type} [Monad m] {items : List α} {f g : β → α → m β}
    (h : ∀ state, ∀ item ∈ items, f state item = g state item) (state : β) :
    items.foldlM f state = items.foldlM g state := by
  induction items generalizing state with
  | nil => rfl
  | cons item items ih =>
    rw [List.foldlM_cons, List.foldlM_cons, h state item (by simp)]
    exact congrArg _ (funext fun next ↦ ih (fun _ other hother ↦ h _ other (by simp [hother])) next)

/-- The failure of a computation is none that the computation does not end with. -/
theorem error_ne_error {action : Except ε α} {failure other : ε} (h : action ≠ .error failure)
    (hother : action = .error other) : (.error other : Except ε β) ≠ .error failure :=
  fun hsame ↦ h (hother.trans (congrArg Except.error (Except.error.inj hsame)))

/-- A sequence does not fail in a way that neither of its parts does. -/
theorem bind_ne_error {action : Except ε α} {next : α → Except ε β} {failure : ε}
    (h : action ≠ .error failure)
    (hnext : ∀ value, action = .ok value → next value ≠ .error failure) :
    action >>= next ≠ .error failure := by
  cases action with
  | error other => exact error_ne_error h rfl
  | ok value => exact hnext value rfl

theorem map_ne_error {action : Except ε α} {failure : ε} (h : action ≠ .error failure)
    (f : α → β) : f <$> action ≠ .error failure := by
  cases action with
  | error other => exact error_ne_error h rfl
  | ok value => exact nofun

/-- A list is not computed element by element if one of its elements is not. -/
theorem mapM_ne_ok {items : List α} {item : α} {f : α → Except ε β} (hitem : item ∈ items)
    (h : ∀ value, f item ≠ .ok value) (values : List β) : items.mapM f ≠ .ok values := by
  intro hvalues
  induction items generalizing values with
  | nil => exact absurd hitem List.not_mem_nil
  | cons first items ih =>
    rw [List.mapM_cons] at hvalues
    obtain ⟨value, hvalue, hvalues⟩ := bind_eq_ok.mp hvalues
    obtain ⟨rest, hrest, -⟩ := bind_eq_ok.mp hvalues
    rcases List.mem_cons.mp hitem with rfl | hitem
    · exact h value hvalue
    · exact ih hitem rest hrest

end Steps

/-! ### Computations that may panic -/

/-- A computation that panics, or succeeds with a value that satisfies `post`. -/
def MayPanic {α : Type} (action : Except Failure α) (post : α → Prop) : Prop :=
  action = .error .panicked ∨ ∃ value, action = .ok value ∧ post value

section Panics

variable {α β ι : Type} {action : Except Failure α} {next : α → Except Failure β}
  {post : α → Prop} {post' : β → Prop}

theorem mayPanic_ok {value : α} (h : post value) : MayPanic (.ok value) post :=
  .inr ⟨value, rfl, h⟩

theorem mayPanic_orPanic (value? : Option α) :
    MayPanic (orPanic value?) fun value ↦ value? = some value := by
  cases value? with
  | none => exact .inl rfl
  | some value => exact mayPanic_ok rfl

theorem mayPanic_panicUnless (condition : Prop) [Decidable condition] :
    MayPanic (panicUnless condition) fun _ ↦ condition := by
  unfold panicUnless
  split_ifs with h
  · exact mayPanic_ok h
  · exact .inl rfl

theorem MayPanic.ne_wild (h : MayPanic action post) : action ≠ .error .wild := by
  rcases h with rfl | ⟨value, rfl, -⟩
  · exact nofun
  · exact nofun

/-- What a computation that may panic comes to. -/
theorem MayPanic.of_eq_ok (h : MayPanic action post) {value : α} (hvalue : action = .ok value) :
    post value := by
  rcases h with hpanics | ⟨_, hother, hpost⟩
  · exact nomatch hpanics.symm.trans hvalue
  · exact Except.ok.inj (hother.symm.trans hvalue) ▸ hpost

/-- More may be known of the value of a computation that may panic. -/
theorem MayPanic.refine {post' : α → Prop} (h : MayPanic action post)
    (hpost : ∀ value, action = .ok value → post' value) : MayPanic action post' :=
  h.imp_right fun ⟨value, hvalue, _⟩ ↦ ⟨value, hvalue, hpost value hvalue⟩

theorem MayPanic.map (h : MayPanic action post) (f : α → β) :
    MayPanic (f <$> action) fun _ ↦ True := by
  rcases h with rfl | ⟨value, rfl, -⟩
  · exact .inl rfl
  · exact mayPanic_ok trivial

theorem MayPanic.bind (h : MayPanic action post)
    (hnext : ∀ value, post value → MayPanic (next value) post') :
    MayPanic (action >>= next) post' := by
  rcases h with rfl | ⟨value, rfl, hvalue⟩
  · exact .inl rfl
  · exact hnext value hvalue

/-- What comes after a computation that may panic panics, whether it is come to or not. -/
theorem MayPanic.bind_panics (h : MayPanic action post)
    (hnext : ∀ value, post value → next value = .error .panicked) :
    action >>= next = .error .panicked := by
  rcases h with rfl | ⟨value, rfl, hvalue⟩
  · rfl
  · exact hnext value hvalue

/-- A list that is computed element by element panics only as one of its elements does. -/
theorem mayPanic_mapM {items : List ι} {f : ι → Except Failure α}
    (h : ∀ item ∈ items, MayPanic (f item) fun _ ↦ True) :
    MayPanic (items.mapM f) fun _ ↦ True := by
  induction items with
  | nil => exact mayPanic_ok trivial
  | cons item items ih =>
    rw [List.mapM_cons]
    have hrest := ih fun other hother ↦ h other (by simp [hother])
    exact (h item (by simp)).bind fun _ _ ↦ hrest.bind fun _ _ ↦ mayPanic_ok trivial

theorem MayPanic.foldlM {items : List ι} {step : α → ι → Except Failure α}
    (h : ∀ item ∈ items, ∀ state, post state → MayPanic (step state item) post) {state : α}
    (hstate : post state) : MayPanic (items.foldlM step state) post := by
  induction items generalizing state with
  | nil => exact mayPanic_ok hstate
  | cons item items ih =>
    rw [List.foldlM_cons]
    exact (h item (by simp) state hstate).bind fun _ hnext ↦
      ih (fun other hother ↦ h other (by simp [hother])) hnext

/-- A loop whose rounds may panic panics if one of them does. -/
theorem foldlM_panics {items : List ι} {item : ι} {step : α → ι → Except Failure α}
    (h : ∀ other ∈ items, ∀ state, post state → MayPanic (step state other) post)
    (hitem : item ∈ items) (hpanics : ∀ state, post state → step state item = .error .panicked)
    {state : α} (hstate : post state) : items.foldlM step state = .error .panicked := by
  induction items generalizing state with
  | nil => exact absurd hitem List.not_mem_nil
  | cons first items ih =>
    rw [List.foldlM_cons]
    rcases List.mem_cons.mp hitem with rfl | hlater
    · rw [hpanics state hstate]
      rfl
    · exact (h first (by simp) state hstate).bind_panics fun _ hnext ↦
        ih (fun other hother ↦ h other (by simp [hother])) hlater hnext

end Panics

/-! ### Values and buffers -/

/-- A refusal is not a wild access. -/
theorem Refusal.check_ne_wild {α : Type} (result : Except Refusal α) :
    Refusal.check result ≠ .error .wild := by
  cases result with
  | ok value => exact nofun
  | error reason => exact nofun

/-- A buffer whose bytes a signed machine word counts can be had. -/
theorem Capacity.reserve_eq_ok {elementBytes count : Nat} :
    reserve elementBytes count = .ok () ↔ count * elementBytes < Word.signedLimit := by
  unfold reserve panicUnless
  split_ifs with h
  · exact iff_of_true rfl h
  · exact iff_of_false nofun h

theorem Capacity.mayPanic_reserve (elementBytes count : Nat) :
    MayPanic (reserve elementBytes count) fun _ ↦ count * elementBytes < Word.signedLimit :=
  mayPanic_panicUnless _

/-- A buffer that a machine can hold: a signed word counts its bytes. -/
def Addressable (buffer : Array Single) : Prop :=
  buffer.size * Capacity.singleBytes < Word.signedLimit

instance (buffer : Array Single) : Decidable (Addressable buffer) :=
  inferInstanceAs (Decidable (_ < _))

theorem Addressable.size_lt {buffer : Array Single} (h : Addressable buffer) :
    buffer.size < Word.limit := by
  unfold Addressable Capacity.singleBytes Word.signedLimit at h
  unfold Word.limit
  omega

theorem sliceOrPanic_eq {buffer : Array Single} {start stop : Nat} (hstart : start ≤ stop)
    (hstop : stop ≤ buffer.size) :
    sliceOrPanic buffer start stop = .ok (buffer.extract start stop) := by
  rw [sliceOrPanic, panicUnless, if_pos ⟨hstart, hstop⟩]
  rfl

end PanelGemm
