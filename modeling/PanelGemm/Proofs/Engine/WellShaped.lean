import PanelGemm.Engine.Request
import PanelGemm.Proofs.Matrix.Storage
import PanelGemm.Proofs.Panel.Blocks

/-!
# Well-shaped requests

What an engine requires of a request and of the size of its output, in the order in which it is
checked (`Engine.requirements`), and the same without the order and the faults
(`Engine.WellShaped`). As long as words count what the operands need (`Request.Countable`), the
check of an engine is the check of these requirements (`check_eq`), and it passes exactly the
requests that are well shaped (`check_eq_ok`). Checked arithmetic passes no other request that has
something to compute, so that it is enough for the check that it counts exactly
(`Request.CountsExactly`, `wellShaped_of_check`).
-/

set_option autoImplicit false
set_option relaxedAutoImplicit false

namespace PanelGemm

/-- Words count the elements that the stored left operand and the output need. -/
structure Request.Countable (request : Request) : Prop where
  left : Storage.Countable (request.orientation.storedRows request.m request.k)
    (request.orientation.storedColumns request.m request.k) request.leftStride
  output : Storage.Countable request.m request.n request.outputStride

/-- A request and an output of a given size in the memory of a machine: the panel is whole, the
operands are buffers, and all of them fit into memory together. -/
structure Request.Resident (request : Request) (size : Nat) : Prop where
  whole : request.panel.Whole
  left : Addressable request.left
  output : size * Capacity.singleBytes < Word.signedLimit
  together : (request.left.size + request.panel.data.size + size) * Capacity.singleBytes <
    Word.limit

theorem Request.Resident.size_lt {request : Request} {size : Nat} (h : request.Resident size) :
    size < Word.limit := by
  have houtput := h.output
  unfold Capacity.singleBytes Word.signedLimit at houtput
  unfold Word.limit
  omega

/-- What the operands need is counted as it is, or a request that cannot be counted is a panic. A
request with nothing to compute needs nothing. -/
def Request.CountsExactly (request : Request) : Prop :=
  request.arithmetic = .checked ∨ request.isEmpty = true ∨ request.Countable

/-- Rows of ones times columns of ones, in two K-blocks. The rows of the output are so far apart
that every second one is a whole word from the next but one. -/
def Request.distantRows (arithmetic : Arithmetic) (m : Nat) : Request where
  arithmetic := arithmetic
  m := m
  left := Array.replicate (m * 2) .one
  orientation := .plain
  leftStride := 2
  panel := ⟨⟨.avx2, 2, 17, 1, Nat.one_pos⟩, .one, Array.replicate 64 .one⟩
  outputStride := 2 ^ 63
  alpha := .one
  beta := .one

namespace Engine

variable {engine : Engine} {request : Request} {size : Nat}

/-- What is required of the output of a request: a stride that holds a row, and a place for the
last row. -/
def outputRequirements (request : Request) (size : Nat) : List Requirement :=
  [⟨request.n = 0 ∨ request.n ≤ request.outputStride,
      .shortOutputStride request.outputStride request.n⟩,
    ⟨request.m = 0 ∨ request.n = 0 ∨ (request.m - 1) * request.outputStride + request.n ≤ size,
      .shortBuffer request.m request.n request.outputStride
        ((request.m - 1) * request.outputStride + request.n) size⟩]

/-- What an engine requires of a request for an output of a given size. -/
def requirements (engine : Engine) (request : Request) (size : Nat) : List Requirement :=
  [⟨engine.family.accepts request.panel.width, .panelWidth request.panel.level request.panel.width
      engine.level engine.family.blockWidth⟩] ++
    Storage.requirements request.left.size (request.orientation.storedRows request.m request.k)
      (request.orientation.storedColumns request.m request.k) request.leftStride ++
    outputRequirements request size

/-- A request that fits an engine and an output of a given size. -/
structure WellShaped (engine : Engine) (request : Request) (size : Nat) : Prop where
  width : engine.family.accepts request.panel.width = true
  left : Storage.Holds request.left.size (request.orientation.storedRows request.m request.k)
    (request.orientation.storedColumns request.m request.k) request.leftStride
  stride : request.n = 0 ∨ request.n ≤ request.outputStride
  output : request.m = 0 ∨ request.n = 0 ∨
    (request.m - 1) * request.outputStride + request.n ≤ size

theorem WellShaped.holds_output (h : engine.WellShaped request size) :
    Storage.Holds size request.m request.n request.outputStride := by
  have hstride := h.stride
  have houtput := h.output
  unfold Storage.Holds
  omega

/-- Words count what a request needs that is well shaped in buffers of the machine. -/
theorem WellShaped.countable (h : engine.WellShaped request size)
    (hleft : request.left.size < Word.limit) (hsize : size < Word.limit) : request.Countable :=
  ⟨h.left.countable hleft, h.holds_output.countable hsize⟩

theorem checkWidth_eq (engine : Engine) (panel : Panel) : engine.checkWidth panel =
    Requirement.check [⟨engine.family.accepts panel.width,
      .panelWidth panel.level panel.width engine.level engine.family.blockWidth⟩] := by
  unfold checkWidth
  cases h : engine.family.accepts panel.width with
  | false => rfl
  | true => rfl

/-- What passes the check has a panel that the kernels take, and an output stride that holds a row,
however the elements are counted. -/
theorem width_stride_of_check (h : engine.check request size = .ok ()) (hcolumns : 0 < request.n) :
    engine.family.accepts request.panel.width = true ∧ request.n ≤ request.outputStride := by
  obtain ⟨_, hwidth, h⟩ := bind_eq_ok.mp h
  obtain ⟨_, -, h⟩ := bind_eq_ok.mp h
  obtain ⟨_, hstride, -⟩ := bind_eq_ok.mp h
  constructor
  · by_contra hrefused
    rw [checkWidth, if_neg hrefused] at hwidth
    exact nomatch hwidth
  · by_contra hshort
    rw [checkOutputStride, if_pos ⟨hcolumns, Nat.lt_of_not_le hshort⟩] at hstride
    exact nomatch hstride

/-- The check refuses or panics if it fails. -/
theorem check_ne_wild (engine : Engine) (request : Request) (size : Nat) :
    engine.check request size ≠ .error .wild := by
  refine bind_ne_error ?_ fun _ _ ↦ bind_ne_error Storage.check_ne_wild fun _ _ ↦
    bind_ne_error ?_ fun _ _ ↦ Storage.check_ne_wild
  · unfold checkWidth
    split_ifs
    · exact nofun
    · exact nofun
  · unfold checkOutputStride
    split_ifs
    · exact nofun
    · exact nofun

/-- Once the stride of the output is known to hold a row, only the size of its buffer is left to
be checked. -/
theorem checkOutput_eq (h : Storage.Countable request.m request.n request.outputStride)
    (size : Nat) :
    (do checkOutputStride request
        Storage.check request.arithmetic size request.m request.n request.outputStride) =
      Requirement.check (outputRequirements request size) := by
  unfold checkOutputStride outputRequirements
  by_cases hstride : request.n = 0 ∨ request.n ≤ request.outputStride
  · have hholds : request.m = 0 ∨ request.n = 0 ∨ request.n ≤ request.outputStride := .inr hstride
    rw [if_neg (by omega), Requirement.check_cons_of_met (decide_eq_true hstride),
      Storage.check_eq h, Storage.requirements]
    exact Requirement.check_cons_of_met (decide_eq_true hholds)
  · rw [if_pos (by omega), Requirement.check_cons_of_not_met (decide_eq_false hstride)]
    rfl

/-- The check of an engine meets the requirements one after another. -/
theorem check_eq (h : request.Countable) (engine : Engine) (size : Nat) :
    engine.check request size = Requirement.check (engine.requirements request size) := by
  rw [requirements, Requirement.check_append, Requirement.check_append,
    ← checkOutput_eq h.output, ← checkWidth_eq, ← Storage.check_eq h.left, bind_assoc]
  rfl

/-- The requirements are those of a request that is well shaped. -/
theorem requirements_met :
    Requirement.check (engine.requirements request size) = .ok () ↔
      engine.WellShaped request size := by
  rw [Requirement.check_eq_ok]
  simp only [requirements, Storage.requirements, outputRequirements, List.forall_mem_append,
    List.forall_mem_cons, List.not_mem_nil, false_implies, implies_true, and_true,
    decide_eq_true_eq]
  constructor
  · rintro ⟨⟨hwidth, hstride, hsize⟩, houtputStride, houtput⟩
    refine ⟨hwidth, ?_, houtputStride, houtput⟩
    unfold Storage.Holds
    omega
  · rintro ⟨hwidth, hleft, houtputStride, houtput⟩
    unfold Storage.Holds at hleft
    refine ⟨⟨hwidth, ?_, ?_⟩, houtputStride, houtput⟩
    · omega
    · omega

/-- The check passes the requests that are well shaped. -/
theorem check_eq_ok (h : request.Countable) :
    engine.check request size = .ok () ↔ engine.WellShaped request size := by
  rw [check_eq h, requirements_met]

/-- What passes the check with checked arithmetic can be counted. -/
theorem countable_of_check (hchecked : request.arithmetic = .checked)
    (h : engine.check request size = .ok ()) : request.Countable := by
  obtain ⟨-, -, h⟩ := bind_eq_ok.mp h
  obtain ⟨_, hleft, h⟩ := bind_eq_ok.mp h
  obtain ⟨-, -, houtput⟩ := bind_eq_ok.mp h
  rw [hchecked] at hleft houtput
  exact ⟨Storage.countable_of_check (Arithmetic.exact_checked _) hleft,
    Storage.countable_of_check (Arithmetic.exact_checked _) houtput⟩

/-- A request that passes a check that counts exactly is well shaped, unless there is nothing to
compute. -/
theorem wellShaped_of_check (hexact : request.CountsExactly) (hsome : request.isEmpty = false)
    (h : engine.check request size = .ok ()) :
    request.Countable ∧ engine.WellShaped request size := by
  have hcount : request.Countable := by
    rcases hexact with hchecked | hempty | hcount
    · exact countable_of_check hchecked h
    · exact absurd hempty (by rw [hsome]; decide)
    · exact hcount
  exact ⟨hcount, (check_eq_ok hcount).mp h⟩

end Engine

end PanelGemm
