import Mathlib.Data.List.DropRight
import PanelGemm.Text.Blank

/-!
# Trimmed texts

A text is trimmed to what is left of it when the blanks at its two ends are taken away
(`Text.TrimsTo`): there are only blanks before it and behind it, and it neither starts nor ends with
one. `Text.trim` computes this part, and there is no other one (`Text.trim_eq_iff`).
-/

set_option autoImplicit false
set_option relaxedAutoImplicit false

namespace PanelGemm.Text

variable {text body before behind : List Char}

/-- There is nothing but white space in a text. -/
def AllBlank (text : List Char) : Prop := ∀ c ∈ text, isBlank c = true

/-- A text is a body with blanks around it, and the body has none at its ends. -/
def TrimsTo (text body : List Char) : Prop :=
  ∃ before behind, text = before ++ body ++ behind ∧ AllBlank before ∧ AllBlank behind ∧
    (∀ c ∈ body.head?, isBlank c = false) ∧ ∀ c ∈ body.getLast?, isBlank c = false

theorem trimEnd_eq_rdropWhile (text : List Char) : trimEnd text = text.rdropWhile isBlank := rfl

/-- Blanks before a text are taken away. -/
theorem dropWhile_blank_append (h : AllBlank before) (text : List Char) :
    (before ++ text).dropWhile isBlank = text.dropWhile isBlank := by
  induction before with
  | nil => rfl
  | cons c before ih =>
    obtain ⟨hc, hbefore⟩ := List.forall_mem_cons.mp h
    rw [List.cons_append, List.dropWhile_cons_of_pos hc, ih hbefore]

theorem dropWhile_eq_self (h : ∀ c ∈ text.head?, isBlank c = false) :
    text.dropWhile isBlank = text := by
  cases text with
  | nil => rfl
  | cons c text => exact List.dropWhile_cons_of_neg (by simp [h c rfl])

/-- Blanks behind a text are taken away. -/
theorem trimEnd_append_blank (h : AllBlank behind) (text : List Char) :
    trimEnd (text ++ behind) = trimEnd text := by
  have hreverse : AllBlank behind.reverse := fun c hc ↦ h c (List.mem_reverse.mp hc)
  rw [trimEnd, List.reverse_append, dropWhile_blank_append hreverse, trimEnd]

theorem trimEnd_eq_self (h : ∀ c ∈ text.getLast?, isBlank c = false) : trimEnd text = text := by
  rw [trimEnd, dropWhile_eq_self, List.reverse_reverse]
  rwa [List.head?_reverse]

/-- The first character that is not taken away is not blank. -/
theorem head?_dropWhile_blank (text : List Char) :
    ∀ c ∈ (text.dropWhile isBlank).head?, isBlank c = false := by
  intro c hc
  have hnot := List.head?_dropWhile_not isBlank text
  rw [Option.mem_def.mp hc] at hnot
  simpa using hnot

theorem getLast?_trimEnd (text : List Char) :
    ∀ c ∈ (trimEnd text).getLast?, isBlank c = false := by
  rw [trimEnd, List.getLast?_reverse]
  exact head?_dropWhile_blank text.reverse

/-- What is left when the blanks at its end are taken away starts as the text does. -/
theorem head?_trimEnd (h : ∀ c ∈ text.head?, isBlank c = false) :
    ∀ c ∈ (trimEnd text).head?, isBlank c = false := by
  intro c hc
  refine h c ?_
  obtain ⟨behind, hbehind⟩ := List.rdropWhile_prefix isBlank text
  rw [← hbehind, List.head?_append, ← trimEnd_eq_rdropWhile, Option.mem_def.mp hc]
  rfl

theorem trimsTo_trim (text : List Char) : TrimsTo text (trim text) := by
  refine ⟨text.takeWhile isBlank, (text.dropWhile isBlank).rtakeWhile isBlank, ?_,
    fun c hc ↦ List.mem_takeWhile_imp hc, fun c hc ↦ List.mem_rtakeWhile_imp hc,
    head?_trimEnd (head?_dropWhile_blank text), getLast?_trimEnd _⟩
  rw [List.append_assoc, trim, trimEnd_eq_rdropWhile, List.rdropWhile_append_rtakeWhile,
    List.takeWhile_append_dropWhile]

/-- A text trims to one text only, and `trim` computes it. -/
theorem trim_eq_iff : trim text = body ↔ TrimsTo text body := by
  constructor
  · rintro rfl
    exact trimsTo_trim text
  · rintro ⟨before, behind, rfl, hbefore, hbehind, hfirst, hlast⟩
    rw [trim, List.append_assoc, dropWhile_blank_append hbefore]
    cases body with
    | nil => exact congrArg trimEnd (List.dropWhile_eq_nil_iff.mpr hbehind)
    | cons c body =>
      have hkept : (c :: body ++ behind).dropWhile isBlank = c :: body ++ behind :=
        dropWhile_eq_self hfirst
      rw [hkept, trimEnd_append_blank hbehind, trimEnd_eq_self hlast]

/-- A text trims to nothing if there is nothing but white space in it. -/
theorem trim_eq_nil_iff : trim text = [] ↔ AllBlank text := by
  rw [trim, trimEnd_eq_rdropWhile, List.rdropWhile_eq_nil_iff]
  constructor
  · intro h c hc
    rw [← List.takeWhile_append_dropWhile (p := isBlank) (l := text)] at hc
    rcases List.mem_append.mp hc with hbefore | hrest
    · exact List.mem_takeWhile_imp hbefore
    · exact h c hrest
  · exact fun h c hc ↦ h c ((List.dropWhile_sublist _).subset hc)

/-- More white space around a text is trimmed as well. -/
theorem TrimsTo.surround (h : TrimsTo text body) (hbefore : AllBlank before)
    (hbehind : AllBlank behind) : TrimsTo (before ++ text ++ behind) body := by
  obtain ⟨first, last, rfl, hfirst, hlast, hends⟩ := h
  refine ⟨before ++ first, last ++ behind, by simp, ?_, ?_, hends⟩
  · exact List.forall_mem_append.mpr ⟨hbefore, hfirst⟩
  · exact List.forall_mem_append.mpr ⟨hlast, hbehind⟩

/-- A text is trimmed before or after its characters are replaced, as long as the same ones stay
blank. -/
theorem TrimsTo.map {f : Char → Char} (hf : ∀ c, isBlank (f c) = isBlank c)
    (h : TrimsTo text body) : TrimsTo (text.map f) (body.map f) := by
  obtain ⟨before, behind, rfl, hbefore, hbehind, hfirst, hlast⟩ := h
  refine ⟨before.map f, behind.map f, by simp, ?_, ?_, ?_, ?_⟩
  · simpa [AllBlank, hf] using hbefore
  · simpa [AllBlank, hf] using hbehind
  · simpa [hf] using hfirst
  · simpa [hf] using hlast

end PanelGemm.Text
