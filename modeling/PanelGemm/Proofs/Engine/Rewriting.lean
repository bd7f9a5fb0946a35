import Mathlib.Algebra.Ring.Nat
import PanelGemm.Engine.Stage
import PanelGemm.Proofs.Arithmetic
import PanelGemm.Proofs.Window

/-!
# Stages that rewrite the band

`Stage.Rewrites` is the contract of a stage that succeeds: from every workspace with buffers of the
given sizes it ends with a value that satisfies a postcondition, keeps the sizes, and applies a
function to every element of the band. What the strip and the staging area hold is not part of the
contract, so a stage that meets it cannot depend on what earlier stages left there. Stages that
follow one another compose (`Rewrites.bind`), and so do the rounds of a loop
(`Rewrites.foldlM`, `Rewrites.forM`). `Stage.Ends` is the contract of a stage whose result is known,
be it a value or a failure.
-/

set_option autoImplicit false
set_option relaxedAutoImplicit false

namespace PanelGemm

/-- The sizes of the buffers of a workspace. -/
structure Room where
  strip : Nat
  staging : Nat
  band : Nat

/-- Words count the elements of the buffers. -/
structure Room.Countable (room : Room) : Prop where
  strip : room.strip < Word.limit
  staging : room.staging < Word.limit
  band : room.band < Word.limit

/-- The sizes of the buffers of a workspace. -/
def Workspace.room (workspace : Workspace) : Room :=
  ⟨workspace.strip.size, workspace.staging.size, workspace.band.size⟩

namespace Stage

/-- A stage that follows another one goes on from its value and its workspace. -/
theorem run_bind {α β : Type} {action : Stage α} {next : α → Stage β} {workspace : Workspace} :
    (action >>= next).run workspace =
    match action.run workspace with
    | .ok value middle => (next value).run middle
    | .error failure middle => .error failure middle := by
  change EStateM.bind action next workspace = _
  unfold EStateM.bind EStateM.run
  cases action workspace with
  | ok value middle => rfl
  | error failure middle => rfl

/-- In every workspace with the given room a stage succeeds with a value that satisfies `post`,
applies `f` to every element of the band and keeps the room. -/
def Rewrites {α : Type} (action : Stage α) (room : Room) (post : α → Prop)
    (f : Nat → Single → Single) : Prop :=
  ∀ workspace : Workspace, workspace.room = room → ∃ value next,
    action.run workspace = .ok value next ∧ post value ∧ next.room = room ∧
      next.band = workspace.band.mapIdx f

namespace Rewrites

variable {α β : Type} {room : Room} {f g : Nat → Single → Single}

theorem pure {post : α → Prop} {value : α} (h : post value) :
    (Pure.pure value : Stage α).Rewrites room post fun _ x ↦ x := by
  intro workspace hroom
  exact ⟨value, workspace, rfl, h, hroom, (mapIdx_eq_self fun _ _ ↦ rfl).symm⟩

theorem bind {action : Stage α} {next : α → Stage β} {post : α → Prop} {post' : β → Prop}
    (h : action.Rewrites room post f)
    (hnext : ∀ value, post value → (next value).Rewrites room post' g) :
    (action >>= next).Rewrites room post' fun q x ↦ g q (f q x) := by
  intro workspace hroom
  obtain ⟨value, middle, hrun, hvalue, hmiddle, hband⟩ := h workspace hroom
  obtain ⟨result, last, hrun', hresult, hlast, hband'⟩ := hnext value hvalue middle hmiddle
  refine ⟨result, last, ?_, hresult, hlast, ?_⟩
  · change EStateM.bind action next workspace = _
    rw [EStateM.bind, show action workspace = _ from hrun]
    exact hrun'
  · rw [hband', hband, Array.mapIdx_mapIdx]
    rfl

theorem congr {action : Stage α} {post : α → Prop} (h : action.Rewrites room post f)
    (hfg : ∀ q < room.band, ∀ x, f q x = g q x) : action.Rewrites room post g := by
  intro workspace hroom
  obtain ⟨value, next, hrun, hvalue, hnext, hband⟩ := h workspace hroom
  refine ⟨value, next, hrun, hvalue, hnext, hband.trans ?_⟩
  refine Array.mapIdx_eq_mapIdx_iff.mpr fun q hq ↦ hfg q ?_ _
  rw [← hroom]
  exact hq

theorem mono {action : Stage α} {post post' : α → Prop} (h : action.Rewrites room post f)
    (hpost : ∀ value, post value → post' value) : action.Rewrites room post' f := by
  intro workspace hroom
  obtain ⟨value, next, hrun, hvalue, hnext, hband⟩ := h workspace hroom
  exact ⟨value, next, hrun, hpost value hvalue, hnext, hband⟩

/-- The rounds of a counting loop rewrite the band one after another. -/
theorem foldlM {ι : Type} {items : List ι} {step : Nat → ι → Stage Nat} {count : ι → Nat}
    {f : ι → Nat → Single → Single}
    (h : ∀ item ∈ items, ∀ total,
      (step total item).Rewrites room (· = total + count item) (f item)) (total : Nat) :
    (items.foldlM step total).Rewrites room (· = total + (items.map count).sum)
      fun q x ↦ items.foldl (fun x item ↦ f item q x) x := by
  induction items generalizing total with
  | nil => exact pure rfl
  | cons item items ih =>
    have hhead := h item (by simp) total
    have htail := ih fun other hother ↦ h other (by simp [hother])
    rw [List.foldlM_cons, List.map_cons, List.sum_cons, ← Nat.add_assoc]
    exact hhead.bind (g := fun q x ↦ items.foldl (fun x item ↦ f item q x) x) fun value hvalue ↦
      hvalue ▸ htail value

/-- The rounds of a loop rewrite the band one after another. -/
theorem forM {ι : Type} {items : List ι} {step : ι → Stage Unit} {f : ι → Nat → Single → Single}
    (h : ∀ item ∈ items, (step item).Rewrites room (fun _ ↦ True) (f item)) :
    (items.forM step).Rewrites room (fun _ ↦ True)
      fun q x ↦ items.foldl (fun x item ↦ f item q x) x := by
  induction items with
  | nil => exact pure trivial
  | cons item items ih =>
    exact (h item (by simp)).bind fun _ _ ↦ ih fun other hother ↦ h other (by simp [hother])

end Rewrites

/-! ### Stages that may fail -/

/-- The end of a stage with a given result. -/
def ending {α : Type} (result : Except Failure α) (workspace : Workspace) :
    EStateM.Result Failure Workspace α :=
  match result with
  | .ok value => .ok value workspace
  | .error failure => .error failure workspace

/-- In every workspace with the given room a stage ends with the same result, applies `f` to every
element of the band and keeps the room. -/
def Ends {α : Type} (action : Stage α) (room : Room) (result : Except Failure α)
    (f : Nat → Single → Single) : Prop :=
  ∀ workspace : Workspace, workspace.room = room → ∃ next,
    action.run workspace = ending result next ∧ next.room = room ∧
      next.band = workspace.band.mapIdx f

section Ends

variable {α β : Type} {room : Room} {f g : Nat → Single → Single} {action : Stage α}
  {next : α → Stage β}

theorem Rewrites.ends {value : α} (h : action.Rewrites room (· = value) f) :
    action.Ends room (.ok value) f := by
  intro workspace hroom
  obtain ⟨result, last, hrun, rfl, hlast⟩ := h workspace hroom
  exact ⟨last, hrun, hlast⟩

/-- A stage that comes after one that succeeds decides on the result. -/
theorem Rewrites.bind_ends {value : α} {result : Except Failure β}
    (h : action.Rewrites room (· = value) f) (hnext : (next value).Ends room result g) :
    (action >>= next).Ends room result fun q x ↦ g q (f q x) := by
  intro workspace hroom
  obtain ⟨_, middle, hrun, rfl, hmiddle, hband⟩ := h workspace hroom
  obtain ⟨last, hrun', hlast, hband'⟩ := hnext middle hmiddle
  refine ⟨last, ?_, hlast, ?_⟩
  · change EStateM.bind action next workspace = _
    rw [EStateM.bind, show action workspace = _ from hrun]
    exact hrun'
  · rw [hband', hband, Array.mapIdx_mapIdx]
    rfl

/-- A stage that comes after one that fails does not happen. -/
theorem Ends.bind_of_error {failure : Failure} (h : action.Ends room (.error failure) f) :
    (action >>= next).Ends room (.error failure) f := by
  intro workspace hroom
  obtain ⟨last, hrun, hlast⟩ := h workspace hroom
  refine ⟨last, ?_, hlast⟩
  change EStateM.bind action next workspace = _
  rw [EStateM.bind, show action workspace = _ from hrun]
  rfl

theorem ends_throw (failure : Failure) :
    (throw failure : Stage α).Ends room (.error failure) fun _ x ↦ x :=
  fun workspace hroom ↦ ⟨workspace, rfl, hroom, (mapIdx_eq_self fun _ _ ↦ rfl).symm⟩

end Ends

/-! ### The elementary stages -/

/-- What comes after a computation only matters where that has a value. -/
theorem ofExcept_bind_congr {α β : Type} {result : Except Failure α} {next next' : α → Stage β}
    (h : ∀ value, result = .ok value → next value = next' value) :
    (ofExcept result >>= next : Stage β) = ofExcept result >>= next' := by
  cases result with
  | ok value => exact h value rfl
  | error failure => rfl

/-- A stage that looks at the workspace first sees the one that it starts from. -/
theorem get_bind_run {α : Type} (next : Workspace → Stage α) (workspace : Workspace) :
    (get >>= next : Stage α).run workspace = (next workspace).run workspace :=
  rfl

/-- A count that is a word is computed as it is. -/
theorem word_eq {request : Request} {value : Nat} (h : value < Word.limit) :
    Stage.word request value = pure value := by
  rw [Stage.word, Request.word, Arithmetic.word_of_lt h]
  rfl

theorem callKernel_eq {kernel : Kernel} {call : MicroCall} {output result : Array Single}
    (h : kernel.run call output = some result) : callKernel kernel call output = pure result := by
  rw [callKernel, h]

theorem firstElements_eq {buffer : Array Single} {count : Nat} (h : count ≤ buffer.size) :
    firstElements buffer count = pure (buffer.extract 0 count) :=
  if_pos h

theorem size_withFirst {buffer first : Array Single} (h : first.size ≤ buffer.size) :
    (withFirst buffer first).size = buffer.size := by
  rw [withFirst, Array.size_append, Array.size_extract, Nat.min_self]
  omega

/-- Of a buffer that is replaced in full nothing is left. -/
theorem withFirst_of_size_le {buffer first : Array Single} (h : buffer.size ≤ first.size) :
    withFirst buffer first = first := by
  have hnone : buffer.extract first.size = #[] := Array.extract_empty_of_size_le_start h
  rw [withFirst, hnone, Array.append_empty]

end Stage

end PanelGemm
