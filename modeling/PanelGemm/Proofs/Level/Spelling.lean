import Mathlib
import PanelGemm.Level.Spelling
import PanelGemm.Proofs.Text.Trim

/-!
# Texts that name a level

A text spells the word that is left of it when white space is trimmed at its ends and every ASCII
letter is raised to a capital (`Text.Spells`). Raising a letter neither makes nor removes a blank,
so the order of the two does not matter. A level is read from exactly the texts that spell one of
its names (`Level.Named`). More white space around a text, or another case of its ASCII letters,
leaves the spelled word as it is, and with it what is read, be it a level or a complaint. As the
names consist of visible ASCII characters, neither a blank inside a text nor a letter of another
script is ever taken for a part of one (`Level.read_recognises`).
-/

set_option autoImplicit false
set_option relaxedAutoImplicit false

namespace PanelGemm

namespace Text

/-! ### Capitals -/

/-- One of the letters from `a` to `z` is raised to its capital, whose code is smaller by 32. Every
other character stays as it is. -/
inductive Raised : Char → Char → Prop
  | letter {c capital : Char} (lower : 'a' ≤ c ∧ c ≤ 'z') (code : capital.toNat + 32 = c.toNat) :
    Raised c capital
  | other {c : Char} (notLower : ¬ ('a' ≤ c ∧ c ≤ 'z')) : Raised c c

/-- Two characters are the same, or one of them is raised to the other. -/
def SameLetter (c other : Char) : Prop := c = other ∨ Raised c other ∨ Raised other c

/-- What is left of a text when it is trimmed is a word once its letters are raised. -/
def Spells (text word : String) : Prop :=
  ∃ body, TrimsTo text.toList body ∧ List.Forall₂ Raised body word.toList

variable {c capital other : Char} {text word : String}

theorem isLower_iff : c.isLower = true ↔ 'a' ≤ c ∧ c ≤ 'z' := by
  simp [Char.isLower, Char.le_def]

/-- The letters from `a` to `z` by their codes. -/
theorem isLower_iff_toNat : c.isLower = true ↔ 97 ≤ c.toNat ∧ c.toNat ≤ 122 := by
  simp [Char.isLower, UInt32.le_iff_toNat_le]

theorem toNat_toUpper (h : c.isLower = true) : c.toUpper.toNat + 32 = c.toNat := by
  have hcode := isLower_iff_toNat.mp h
  have hvalid : (c.toNat - 32).isValidChar := by
    left
    omega
  rw [Char.toUpper_eq_of_isLower h, Char.toNat_ofNat, if_pos hvalid]
  omega

theorem raised_toUpper (c : Char) : Raised c c.toUpper := by
  by_cases h : c.isLower = true
  · exact .letter (isLower_iff.mp h) (toNat_toUpper h)
  · rw [Char.toUpper_eq_of_not_isLower h]
    exact .other (mt isLower_iff.mpr h)

/-- A character is raised to one character only, and `Char.toUpper` computes it. -/
theorem raised_iff : Raised c capital ↔ c.toUpper = capital := by
  constructor
  · rintro (⟨hlower, hcode⟩ | hlower)
    · have hupper := toNat_toUpper (isLower_iff.mpr hlower)
      apply Char.toNat_inj.mp
      omega
    · exact Char.toUpper_eq_of_not_isLower (mt isLower_iff.mp hlower)
  · rintro rfl
    exact raised_toUpper c

/-- The two cases of a letter have one capital. -/
theorem SameLetter.toUpper_eq (h : SameLetter c other) : c.toUpper = other.toUpper := by
  rcases h with rfl | h | h
  · rfl
  · rw [← raised_iff.mp h, Char.toUpper_toUpper_eq_toUpper]
  · rw [← raised_iff.mp h, Char.toUpper_toUpper_eq_toUpper]

/-- No letter is blank, neither before nor after it is raised. -/
theorem isBlank_toUpper (c : Char) : isBlank c.toUpper = isBlank c := by
  by_cases h : c.isLower = true
  · have hcode := isLower_iff_toNat.mp h
    have hupper := toNat_toUpper h
    have hvisible : ∀ d : Char, 65 ≤ d.toNat → d.toNat ≤ 122 → isBlank d = false := by
      intro d hfirst hlast
      simp [isBlank, blankRanges]
      omega
    rw [hvisible c (by omega) (by omega), hvisible c.toUpper (by omega) (by omega)]
  · rw [Char.toUpper_eq_of_not_isLower h]

/-! ### Spelled words -/

theorem forall₂_raised_iff {body raised : List Char} :
    List.Forall₂ Raised body raised ↔ body.map Char.toUpper = raised := by
  have hraised : Raised = fun c capital ↦ c.toUpper = capital := by
    ext c capital
    exact raised_iff
  rw [hraised, ← List.forall₂_map_left_iff, List.forall₂_eq_eq_eq]

/-- A text spells one word, and `Level.normalForm` computes it. -/
theorem spells_iff : Spells text word ↔ Level.normalForm text = word := by
  simp only [Spells, ← trim_eq_iff, forall₂_raised_iff, exists_eq_left']
  rw [Level.normalForm, ← String.toList_inj, String.toList_ofList]

/-- White space around a text does not take part in what it spells. -/
theorem normalForm_surround {before behind : String} (hbefore : AllBlank before.toList)
    (hbehind : AllBlank behind.toList) :
    Level.normalForm (before ++ text ++ behind) = Level.normalForm text := by
  have htrim := (trimsTo_trim text.toList).surround hbefore hbehind
  rw [← String.toList_append, ← String.toList_append] at htrim
  rw [Level.normalForm, trim_eq_iff.mpr htrim, Level.normalForm]

/-- Letters are raised before a text is trimmed or afterwards. -/
theorem normalForm_eq_trim (text : String) :
    Level.normalForm text = String.ofList (trim (text.toList.map Char.toUpper)) := by
  have htrim := (trimsTo_trim text.toList).map isBlank_toUpper
  rw [Level.normalForm, trim_eq_iff.mpr htrim]

/-- The case of its letters does not take part in what a text spells. -/
theorem normalForm_of_sameLetter {text other : String}
    (h : List.Forall₂ SameLetter text.toList other.toList) :
    Level.normalForm other = Level.normalForm text := by
  have hraised : text.toList.map Char.toUpper = other.toList.map Char.toUpper := by
    rw [← List.forall₂_eq_eq_eq, List.forall₂_map_left_iff, List.forall₂_map_right_iff]
    exact h.imp fun _ _ ↦ SameLetter.toUpper_eq
  rw [normalForm_eq_trim, normalForm_eq_trim, hraised]

/-- A blank inside a text, or a character that is not ASCII, is seen in what the text spells. -/
theorem exists_mem_of_spells (hspells : Spells text word) {body : List Char}
    (hbody : TrimsTo text.toList body) (hc : c ∈ body) (h : isBlank c = true ∨ 128 ≤ c.toNat) :
    ∃ d ∈ word.toList, isBlank d = true ∨ 128 ≤ d.toNat := by
  obtain ⟨trimmed, htrimmed, hraised⟩ := hspells
  rw [← trim_eq_iff.mpr htrimmed, trim_eq_iff.mpr hbody, forall₂_raised_iff] at hraised
  refine ⟨c.toUpper, hraised ▸ List.mem_map_of_mem hc, ?_⟩
  rcases h with hblank | hcode
  · left
    rwa [isBlank_toUpper]
  · right
    rwa [Char.toUpper_eq_of_not_isLower]
    rw [isLower_iff_toNat]
    omega

end Text

namespace Level

/-! ### Names -/

/-- The names of the levels. -/
inductive Named : Level → String → Prop
  | baseline : Named .baseline "BASELINE"
  | anyarch : Named .baseline "ANYARCH"
  | scalar : Named .baseline "SCALAR"
  | neon : Named .neon "NEON"
  | avx2 : Named .avx2 "AVX2"
  | avx512Ymm : Named .avx512Ymm "AVX512_YMM"
  | avx512Half : Named .avx512Ymm "AVX512_256"
  | avx512 : Named .avx512 "AVX512"

variable {level : Level} {word text : String}

theorem named_iff_mem : Named level word ↔ word ∈ level.spellings := by
  constructor
  · rintro ⟨⟩ <;> simp [spellings]
  · intro h
    cases level <;> simp only [spellings, List.mem_cons, List.not_mem_nil, or_false] at h
    case baseline =>
      rcases h with rfl | rfl | rfl
      · exact .baseline
      · exact .anyarch
      · exact .scalar
    case neon => exact h ▸ .neon
    case avx2 => exact h ▸ .avx2
    case avx512Ymm =>
      rcases h with rfl | rfl
      · exact .avx512Ymm
      · exact .avx512Half
    case avx512 => exact h ▸ .avx512

/-- A level is looked up by each of its names, and by no other text. -/
theorem ofSpelling?_eq_some_iff : ofSpelling? word = some level ↔ Named level word := by
  constructor
  · intro h
    have hfound := List.find?_some h
    rw [named_iff_mem]
    simpa using hfound
  · rintro ⟨⟩ <;> decide

/-- The names consist of visible ASCII characters. -/
theorem Named.visible (h : Named level word) :
    ∀ c ∈ word.toList, Text.isBlank c = false ∧ c.toNat < 128 := by
  have hall : word.toList.all (fun c ↦ !Text.isBlank c && decide (c.toNat < 128)) = true := by
    cases h <;> rfl
  simpa using hall

theorem read_eq_ok_iff : read text = .ok level ↔ Named level (normalForm text) := by
  rw [← ofSpelling?_eq_some_iff, read]
  cases ofSpelling? (normalForm text) with
  | none => simp
  | some other => simp

/-- What spells no name is complained about. -/
theorem read_of_not_named (h : ∀ level, ¬ Named level (normalForm text)) :
    read text = .error (.environment (.unknownLevel (normalForm text))) := by
  have hnone : ofSpelling? (normalForm text) = none := by
    apply Option.eq_none_iff_forall_ne_some.mpr
    intro level hlevel
    exact h level (ofSpelling?_eq_some_iff.mp hlevel)
  rw [read, hnone]

/-- A level is read from a text if the text spells one of its names. White space around a text and
the case of its ASCII letters do not take part in what is read. A text that has a blank inside or
any character outside ASCII names no level. Whatever spells no name is complained about, and the
spelled word is quoted. -/
theorem read_recognises (text : String) :
    (∀ level, read text = .ok level ↔ ∃ word, Text.Spells text word ∧ Named level word) ∧
    (∀ before behind : String, Text.AllBlank before.toList → Text.AllBlank behind.toList →
      read (before ++ text ++ behind) = read text) ∧
    (∀ other : String, List.Forall₂ Text.SameLetter text.toList other.toList →
      read other = read text) ∧
    (∀ body, Text.TrimsTo text.toList body →
      ∀ c ∈ body, Text.isBlank c = true ∨ 128 ≤ c.toNat → ∀ level, read text ≠ .ok level) ∧
    ((¬ ∃ level word, Text.Spells text word ∧ Named level word) →
      ∃ word fault, Text.Spells text word ∧ read text = .error (.environment fault) ∧
        (Refusal.environment fault).message =
          "ISA detection failed: unknown instruction set " ++ Text.quoted word) := by
  have hspells : Text.Spells text (normalForm text) := Text.spells_iff.mpr rfl
  refine ⟨fun level ↦ ?_, fun before behind hbefore hbehind ↦ ?_, fun other hother ↦ ?_,
    fun body hbody c hc hstrange level hread ↦ ?_, fun hnot ↦ ?_⟩
  · simp only [read_eq_ok_iff, Text.spells_iff, exists_eq_left']
  · rw [read, Text.normalForm_surround hbefore hbehind, read]
  · rw [read, Text.normalForm_of_sameLetter hother, read]
  · obtain ⟨d, hd, hseen⟩ := Text.exists_mem_of_spells hspells hbody hc hstrange
    obtain ⟨hblank, hcode⟩ := (read_eq_ok_iff.mp hread).visible d hd
    rcases hseen with hd | hd
    · simp [hblank] at hd
    · omega
  · refine ⟨normalForm text, _, hspells, read_of_not_named fun level hlevel ↦ ?_, rfl⟩
    exact hnot ⟨level, _, hspells, hlevel⟩

/-- An ideographic space and a tab may surround a name in mixed case. A blank inside a name is no
part of it, and neither is a long s, although its own capital is an S. -/
theorem read_recognises_spaced :
    read "\u3000avx512_Ymm\t" = .ok .avx512Ymm ∧ (∀ level, read " AVX 512" ≠ .ok level) ∧
      ∃ word fault, Text.Spells "\u017fcalar\n" word ∧
        read "\u017fcalar\n" = .error (.environment fault) ∧
        (Refusal.environment fault).message =
          "ISA detection failed: unknown instruction set " ++ Text.quoted word := by
  have hname : normalForm "\u3000avx512_Ymm\t" = "AVX512_YMM" := by decide
  have hgap : Text.trim " AVX 512".toList = "AVX 512".toList := by decide
  have hlook : normalForm "\u017fcalar\n" = "\u017fCALAR" := by decide
  obtain ⟨hreads, -⟩ := read_recognises "\u3000avx512_Ymm\t"
  obtain ⟨-, -, -, hinner, -⟩ := read_recognises " AVX 512"
  obtain ⟨-, -, -, -, hother⟩ := read_recognises "\u017fcalar\n"
  refine ⟨(hreads _).mpr ⟨_, Text.spells_iff.mpr hname, .avx512Ymm⟩, ?_, hother ?_⟩
  · exact hinner _ (Text.trim_eq_iff.mp hgap) ' ' (by decide) (.inl (by decide))
  · rintro ⟨level, word, hspells, hnamed⟩
    rw [← Text.spells_iff.mp hspells, hlook] at hnamed
    have hcode := (hnamed.visible '\u017f' (by decide)).2
    exact absurd hcode (by decide)

end Level

end PanelGemm
