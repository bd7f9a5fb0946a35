import PanelGemm.Config
import PanelGemm.Proofs.Decimal.Numeral
import PanelGemm.Proofs.Failure
import PanelGemm.Proofs.Text.Trim

/-!
# The settings of an environment

What the two texts of an environment may say is given by two relations. A level setting names a
level, and a block-rows setting is a numeral for a positive machine word with white space around it;
each of them may be left unset (`Config.LevelSetting`, `Config.BlockRowsSetting`). A configuration
is read exactly from such settings, and if both texts are wrong the level is complained about
(`Config.read_accepts_settings`).
-/

set_option autoImplicit false
set_option relaxedAutoImplicit false

namespace PanelGemm

namespace Config

/-- A text that is absent or has nothing but white space in it. -/
def Unset (text? : Option String) : Prop := ∀ text ∈ text?, Text.AllBlank text.toList

/-- What a level setting asks for: nothing if it is unset, and otherwise the level that it names. -/
inductive LevelSetting : Option String → Option Level → Prop
  | unset {text? : Option String} (blank : Unset text?) : LevelSetting text? none
  | named {text : String} {level : Level} (names : Level.read text = .ok level) :
    LevelSetting (some text) (some level)

/-- What a block-rows setting asks for: 512 rows if it is unset, and otherwise the number of its
numeral. -/
inductive BlockRowsSetting : Option String → Nat → Prop
  | unset {text? : Option String} (blank : Unset text?) : BlockRowsSetting text? 512
  | numeral {text : String} {body : List Char} {rows : Nat}
    (trimmed : Text.TrimsTo text.toList body) (digits : Decimal.IsNumeral body rows)
    (positive : 1 ≤ rows) (word : rows ≤ 2 ^ 64 - 1) : BlockRowsSetting (some text) rows

/-! ### Settings that are given -/

section Given

variable {α : Type} {text? : Option String} {read : String → Except Refusal α}

theorem given?_of_unset (h : Unset text?) : given? text? = none := by
  cases text? with
  | none => rfl
  | some text =>
    have hnil : Text.trim text.toList = [] := Text.trim_eq_nil_iff.mpr (h text rfl)
    simp [given?, hnil]

theorem given?_of_not_blank {text : String} (h : ¬ Text.AllBlank text.toList) :
    given? (some text) = some text := by
  have hne : Text.trim text.toList ≠ [] := mt Text.trim_eq_nil_iff.mp h
  simp [given?, hne]

/-- A setting is unset, or there is something in its text. -/
theorem unset_or_given (text? : Option String) :
    Unset text? ∨ ∃ text, text? = some text ∧ ¬ Text.AllBlank text.toList := by
  cases text? with
  | none => exact .inl nofun
  | some text =>
    by_cases hblank : Text.AllBlank text.toList
    · refine .inl fun other hother ↦ ?_
      cases hother
      exact hblank
    · exact .inr ⟨text, rfl, hblank⟩

/-- A setting that is not read is given, and it fails as the reading of its text does. -/
theorem exists_failure_of_given (h : ∀ value?, (given? text?).mapM read ≠ .ok value?) :
    ∃ text reason, text? = some text ∧ read text = .error reason ∧
      (given? text?).mapM read = .error reason := by
  rcases unset_or_given text? with hunset | ⟨text, rfl, hgiven⟩
  · refine absurd ?_ (h none)
    rw [given?_of_unset hunset]
    rfl
  · rw [given?_of_not_blank hgiven] at h ⊢
    cases hread : read text with
    | ok value =>
      refine absurd ?_ (h (some value))
      rw [Option.mapM_some, hread]
      rfl
    | error reason =>
      refine ⟨text, reason, rfl, hread, ?_⟩
      rw [Option.mapM_some, hread]
      rfl

end Given

/-! ### The level -/

section LevelTexts

variable {text : String} {text? : Option String} {override : Option Level}

/-- White space names no level. -/
theorem read_of_blank (h : Text.AllBlank text.toList) (level : Level) :
    Level.read text ≠ .ok level := by
  have hform : Level.normalForm text = "" := by
    rw [Level.normalForm, Text.trim_eq_nil_iff.mpr h]
    rfl
  have hnone : Level.ofSpelling? "" = none := by decide
  rw [Level.read, hform, hnone]
  exact nofun

theorem readLevel_eq_ok {level : Level} :
    readLevel text = .ok level ↔ Level.read text = .ok level := by
  unfold readLevel Level.read
  cases Level.ofSpelling? (Level.normalForm text) with
  | none => exact iff_of_false nofun nofun
  | some other => exact Iff.rfl

/-- A level setting complains of its variable in front of what is wrong with its text. -/
theorem readLevel_eq_error {reason : Refusal} (h : readLevel text = .error reason) :
    ∃ cause fault, Level.read text = .error cause ∧ reason = .environment fault ∧
      fault.words = "MATMUL_DISPATCH_ISA: " ++ cause.message := by
  unfold readLevel at h
  unfold Level.read
  cases hlevel : Level.ofSpelling? (Level.normalForm text) with
  | none =>
    rw [hlevel] at h
    cases h
    exact ⟨_, _, rfl, rfl, rfl⟩
  | some level =>
    rw [hlevel] at h
    exact nomatch h

theorem levelSetting_iff :
    (given? text?).mapM readLevel = .ok override ↔ LevelSetting text? override := by
  constructor
  · rcases unset_or_given text? with hunset | ⟨text, rfl, hgiven⟩
    · rw [given?_of_unset hunset]
      intro h
      cases h
      exact .unset hunset
    · rw [given?_of_not_blank hgiven, Option.mapM_some]
      intro h
      obtain ⟨level, hlevel, h⟩ := bind_eq_ok.mp h
      cases h
      exact .named (readLevel_eq_ok.mp hlevel)
  · rintro (hunset | hnames)
    · rw [given?_of_unset hunset]
      rfl
    · have hgiven := fun hblank ↦ read_of_blank hblank _ hnames
      rw [given?_of_not_blank hgiven, Option.mapM_some, readLevel_eq_ok.mpr hnames]
      rfl

end LevelTexts

/-! ### The height of a K-block -/

section BlockRowsTexts

variable {text : String} {text? : Option String} {rows : Nat}

theorem readBlockRows_eq_ok : readBlockRows text = .ok rows ↔
    Decimal.readExtent? (Text.trim text.toList) = some rows ∧ rows ≠ 0 := by
  unfold readBlockRows
  cases Decimal.readExtent? (Text.trim text.toList) with
  | none => exact iff_of_false nofun nofun
  | some value =>
    dsimp only
    split_ifs with hzero
    · refine iff_of_false nofun ?_
      rintro ⟨hvalue, hrows⟩
      cases hvalue
      exact hrows hzero
    · constructor
      · intro h
        cases h
        exact ⟨rfl, hzero⟩
      · rintro ⟨hvalue, -⟩
        cases hvalue
        rfl

/-- A block-rows setting that is not read is quoted as it stands. -/
theorem readBlockRows_eq_error {reason : Refusal} (h : readBlockRows text = .error reason) :
    reason = .environment (.blockRowsSetting text) := by
  unfold readBlockRows at h
  split at h
  · split_ifs at h with hzero
    cases h
    rfl
  · cases h
    rfl

/-- A block-rows setting that is given is read exactly if it is a numeral for a positive machine
word. -/
theorem blockRowsSetting_of_given (h : ¬ Text.AllBlank text.toList) :
    readBlockRows text = .ok rows ↔ BlockRowsSetting (some text) rows := by
  rw [readBlockRows_eq_ok, Decimal.readExtent?_eq_some_iff]
  constructor
  · rintro ⟨⟨hdigits, hword⟩, hpositive⟩
    exact .numeral (Text.trimsTo_trim _) hdigits (Nat.one_le_iff_ne_zero.mpr hpositive)
      (Nat.le_sub_one_of_lt hword)
  · rintro (hunset | ⟨htrimmed, hdigits, hpositive, hword⟩)
    · exact absurd (hunset text rfl) h
    · rw [Text.trim_eq_iff.mpr htrimmed]
      exact ⟨⟨hdigits, Nat.lt_of_le_pred (by decide) hword⟩, Nat.one_le_iff_ne_zero.mp hpositive⟩

/-- A numeral has a digit. -/
theorem not_blank_of_numeral {body : List Char} (htrimmed : Text.TrimsTo text.toList body)
    (hdigits : Decimal.IsNumeral body rows) : ¬ Text.AllBlank text.toList := by
  intro hblank
  rw [← Text.trim_eq_nil_iff, Text.trim_eq_iff.mpr htrimmed] at hblank
  obtain ⟨sign, -, digits, hne, hbody, -⟩ := hdigits
  rw [hblank] at hbody
  exact hne (List.map_eq_nil_iff.mp (List.append_eq_nil_iff.mp hbody.symm).2)

theorem blockRowsSetting_iff :
    (∃ rows?, (given? text?).mapM readBlockRows = .ok rows? ∧ rows?.getD defaultBlockRows = rows) ↔
      BlockRowsSetting text? rows := by
  rcases unset_or_given text? with hunset | ⟨text, rfl, hgiven⟩
  · rw [given?_of_unset hunset]
    constructor
    · rintro ⟨_, h, rfl⟩
      cases h
      exact .unset hunset
    · rintro (_ | ⟨htrimmed, hdigits, -, -⟩)
      · exact ⟨none, rfl, rfl⟩
      · exact absurd (hunset _ rfl) (not_blank_of_numeral htrimmed hdigits)
  · rw [given?_of_not_blank hgiven, Option.mapM_some, ← blockRowsSetting_of_given hgiven]
    constructor
    · rintro ⟨rows?, h, rfl⟩
      obtain ⟨value, hvalue, h⟩ := bind_eq_ok.mp h
      cases h
      exact hvalue
    · intro h
      rw [h]
      exact ⟨some rows, rfl, rfl⟩

end BlockRowsTexts

/-- A configuration is read exactly if each of the two settings is unset or well formed, and then it
holds what they ask for. Otherwise the level setting is complained about if there is something wrong
with it, whatever the other one is, and the block-rows setting, quoted as it stands, if not. -/
theorem read_accepts_settings (environment : Environment) :
    (∀ config, read environment = .ok config ↔
      LevelSetting environment.level config.levelOverride ∧
        BlockRowsSetting environment.blockRows config.blockRows) ∧
    ((¬ ∃ override, LevelSetting environment.level override) →
      ∃ text cause fault, environment.level = some text ∧ Level.read text = .error cause ∧
        read environment = .error (.environment fault) ∧
        fault.words = "MATMUL_DISPATCH_ISA: " ++ cause.message) ∧
    ((∃ override, LevelSetting environment.level override) →
      (¬ ∃ rows, BlockRowsSetting environment.blockRows rows) →
      ∃ text fault, environment.blockRows = some text ∧
        read environment = .error (.environment fault) ∧
        fault.words =
          "MATMUL_DISPATCH_BLOCK_ROWS: expected a positive integer, got " ++ Text.quoted text) := by
  refine ⟨fun config ↦ ?_, fun hlevel ↦ ?_, ?_⟩
  · rw [← levelSetting_iff, ← blockRowsSetting_iff]
    constructor
    · intro h
      obtain ⟨override, hlevel, h⟩ := bind_eq_ok.mp h
      obtain ⟨rows?, hrows, h⟩ := bind_eq_ok.mp h
      cases h
      exact ⟨hlevel, rows?, hrows, rfl⟩
    · rintro ⟨hlevel, rows?, hrows, hvalue⟩
      refine bind_eq_ok.mpr ⟨_, hlevel, bind_eq_ok.mpr ⟨rows?, hrows, ?_⟩⟩
      rw [hvalue]
      rfl
  · obtain ⟨text, reason, htext, hreason, hread⟩ :=
      exists_failure_of_given fun override h ↦ hlevel ⟨override, levelSetting_iff.mp h⟩
    obtain ⟨cause, fault, hcause, rfl, hwords⟩ := readLevel_eq_error hreason
    refine ⟨text, cause, fault, htext, hcause, ?_, hwords⟩
    unfold read
    rw [hread]
    rfl
  · rintro ⟨override, hlevel⟩ hrows
    obtain ⟨text, reason, htext, hreason, hread⟩ :=
      exists_failure_of_given fun rows? h ↦ hrows ⟨_, blockRowsSetting_iff.mp ⟨rows?, h, rfl⟩⟩
    cases readBlockRows_eq_error hreason
    refine ⟨text, .blockRowsSetting text, htext, ?_, rfl⟩
    unfold read
    rw [levelSetting_iff.mpr hlevel]
    change (given? environment.blockRows).mapM readBlockRows >>= _ = _
    rw [hread]
    rfl

/-- A sign, leading zeros and white space around a setting are no matter, and of two settings that
are both wrong the level is complained about. -/
theorem read_accepts_settings_spaced :
    (LevelSetting (some " avx2 ") (some .avx2) ∧ BlockRowsSetting (some "\t+0128\n") 128) ∧
      ∃ text cause fault, some "MMX" = some text ∧ Level.read text = .error cause ∧
        read ⟨some "MMX", some "0"⟩ = .error (.environment fault) ∧
        fault.words = "MATMUL_DISPATCH_ISA: " ++ cause.message := by
  have hread : read ⟨some " avx2 ", some "\t+0128\n"⟩ = .ok ⟨some .avx2, 128⟩ := by decide
  have hunnamed : ¬ ∃ override, LevelSetting (some "MMX") override := by
    rintro ⟨override, h⟩
    have hfails : (given? (some "MMX")).mapM readLevel =
        .error (.environment (.levelSetting "MMX")) := by decide
    exact nomatch hfails.symm.trans (levelSetting_iff.mpr h)
  exact ⟨((read_accepts_settings ⟨some " avx2 ", some "\t+0128\n"⟩).1 ⟨some .avx2, 128⟩).mp hread,
    (read_accepts_settings ⟨some "MMX", some "0"⟩).2.1 hunnamed⟩

end Config

end PanelGemm
