import NamespaceAccess.Proofs.FirstFault
import NamespaceAccess.Settings.Load
import Mathlib.Data.List.Basic
import Mathlib.Tactic.ByContra

/-!
The rules on settings, and the first that settings break. Paths are measured by their components,
which leaves out much of what stands between the slashes, but nothing that is too long.
-/
namespace NamespaceAccess

namespace FilePath

/-- In bytes of UTF-8. -/
structure WithinLimits (path : String) : Prop where
  total : path.utf8ByteSize ≤ 4096
  component : ∀ c ∈ components path, c.utf8ByteSize ≤ 255

variable {path s : String}

theorem mem_pieces_of_mem_components (h : s ∈ components path) : s = "/" ∨ s ∈ pieces path := by
  unfold components at h
  split at h
  next => simp at h
  next rest hpieces =>
    rw [hpieces]
    rcases List.mem_append.mp h with h | h
    · cases hempty : rest.isEmpty <;> simp [hempty] at h
      exact .inl h
    · exact .inr (List.mem_cons_of_mem _ (List.mem_of_mem_filter h))
  next first rest _ hpieces =>
    rw [hpieces]
    rcases List.mem_cons.mp h with rfl | h
    · exact .inr List.mem_cons_self
    · exact .inr (List.mem_cons_of_mem _ (List.mem_of_mem_filter h))

theorem mem_components_of_mem_pieces (h : s ∈ pieces path) (hstep : isStep s) :
    s ∈ components path := by
  unfold components
  split
  next hpieces => simp [hpieces] at h
  next rest hpieces =>
    rw [hpieces] at h
    rcases List.mem_cons.mp h with rfl | h
    · contradiction
    · exact List.mem_append_right _ (List.mem_filter.mpr ⟨h, hstep⟩)
  next first rest _ hpieces =>
    rw [hpieces] at h
    rcases List.mem_cons.mp h with rfl | h
    · exact List.mem_cons_self
    · exact List.mem_cons_of_mem _ (List.mem_filter.mpr ⟨h, hstep⟩)

/-- What is left out of the components is empty or a dot. -/
theorem isStep_of_lt (h : 1 < s.utf8ByteSize) : isStep s := by
  by_contra hstep
  have hshort : s = "" ∨ s = "." := by simpa [isStep, or_iff_not_imp_left] using hstep
  have hsize : s.utf8ByteSize ≤ 1 := by
    rcases hshort with rfl | rfl <;> decide
  omega

theorem forall_components_iff_pieces {n : Nat} (hn : 1 ≤ n) :
    (∀ c ∈ components path, c.utf8ByteSize ≤ n) ↔
      ∀ piece ∈ pieces path, piece.utf8ByteSize ≤ n := by
  constructor
  · intro h piece hpiece
    by_contra hlong
    have hstep : isStep piece := isStep_of_lt (by omega)
    exact hlong (h piece (mem_components_of_mem_pieces hpiece hstep))
  · intro h c hc
    rcases mem_pieces_of_mem_components hc with rfl | hc
    · have hsize : "/".utf8ByteSize = 1 := by decide
      omega
    · exact h c hc

theorem withinLimits_iff : WithinLimits path ↔
    path.utf8ByteSize ≤ 4096 ∧ ∀ piece ∈ pieces path, piece.utf8ByteSize ≤ 255 := by
  rw [← forall_components_iff_pieces (by decide)]
  exact ⟨fun h => ⟨h.total, h.component⟩, fun h => ⟨h.1, h.2⟩⟩

end FilePath

namespace PathSetting

/-- The length as a whole is checked before the components. -/
inductive Refuses (setting : PathSetting) (path : String) : SettingsFault → Prop where
  | tooLong (h : 4096 < path.utf8ByteSize) : Refuses setting path (.pathTooLong setting)
  | componentTooLong (htotal : path.utf8ByteSize ≤ 4096) {c : String}
    (hmem : c ∈ FilePath.components path) (h : 255 < c.utf8ByteSize) :
    Refuses setting path (.componentTooLong setting)

variable {setting : PathSetting} {path : String} {fault : SettingsFault}

theorem fault?_of_withinLimits (h : FilePath.WithinLimits path) : setting.fault? path = none := by
  have htotal : ¬ path.utf8ByteSize > FilePath.maxTotalLength := Nat.not_lt.mpr h.total
  simpa [fault?, htotal, FilePath.maxComponentLength] using h.component

theorem Refuses.fault?_eq (h : setting.Refuses path fault) : setting.fault? path = some fault := by
  cases h with
  | tooLong h => simp [fault?, FilePath.maxTotalLength, h]
  | componentTooLong htotal hmem h =>
    have hlong : ¬ path.utf8ByteSize > FilePath.maxTotalLength := Nat.not_lt.mpr htotal
    have hcomponent :
        ∃ c ∈ FilePath.components path, FilePath.maxComponentLength < c.utf8ByteSize :=
      ⟨_, hmem, h⟩
    simp [fault?, hlong, hcomponent]

theorem firstFault (setting : PathSetting) :
    FirstFault setting.fault? FilePath.WithinLimits setting.Refuses where
  of_sound := fault?_of_withinLimits
  of_refused := Refuses.fault?_eq
  covers path := by
    by_cases htotal : path.utf8ByteSize ≤ 4096
    case neg => exact .inr ⟨_, .tooLong (Nat.lt_of_not_le htotal)⟩
    case pos =>
      by_cases hcomponent : ∀ c ∈ FilePath.components path, c.utf8ByteSize ≤ 255
      case pos => exact .inl ⟨htotal, hcomponent⟩
      case neg =>
        obtain ⟨c, hmem, hc⟩ : ∃ c ∈ FilePath.components path, 255 < c.utf8ByteSize := by
          simpa using hcomponent
        exact .inr ⟨_, .componentTooLong htotal hmem hc⟩

theorem fault?_eq_none_iff : setting.fault? path = none ↔ FilePath.WithinLimits path :=
  setting.firstFault.eq_none_iff

theorem fault?_eq_some_iff : setting.fault? path = some fault ↔ setting.Refuses path fault :=
  setting.firstFault.eq_some_iff

end PathSetting

structure SecuritySettings.Sound (s : SecuritySettings) : Prop where
  named : s.adminGroup ≠ ""
  length : s.adminGroup.utf8ByteSize ≤ 256
  plain : ∀ c ∈ s.adminGroup.toList, ¬ WhiteSpace c ∧ ¬ ControlCode c

inductive SecuritySettings.Refused (s : SecuritySettings) : SettingsFault → Prop where
  | missing (h : s.adminGroup = "") : Refused s .adminGroupMissing
  | tooLong (h : 256 < s.adminGroup.utf8ByteSize) : Refused s .adminGroupTooLong
  | illFormed (hnamed : s.adminGroup ≠ "") (hlength : s.adminGroup.utf8ByteSize ≤ 256) {c : Char}
    (hmem : c ∈ s.adminGroup.toList) (h : WhiteSpace c ∨ ControlCode c) :
    Refused s .adminGroupIllFormed

theorem any_illFormed_iff {s : String} :
    (s.toList.any fun c => isWhiteSpace c || isControl c) ↔
      ∃ c ∈ s.toList, WhiteSpace c ∨ ControlCode c := by
  simp only [List.any_eq_true, Bool.or_eq_true, isWhiteSpace_iff, isControl_iff]

theorem SecuritySettings.firstFault : FirstFault fault? Sound Refused where
  of_sound {s} h := by
    have hnamed : ¬ s.adminGroup.isEmpty := by simpa using h.named
    have hlength : ¬ s.adminGroup.utf8ByteSize > maxAdminGroupLength := Nat.not_lt.mpr h.length
    have hplain : ¬ s.adminGroup.toList.any fun c => isWhiteSpace c || isControl c := by
      rw [any_illFormed_iff]
      rintro ⟨c, hmem, hspace | hcontrol⟩
      · exact (h.plain c hmem).1 hspace
      · exact (h.plain c hmem).2 hcontrol
    rw [fault?, if_neg hnamed, if_neg hlength, if_neg hplain]
  of_refused {s fault} h := by
    cases h with
    | missing h => simp [fault?, h]
    | tooLong h =>
      have hnamed : s.adminGroup ≠ "" := by
        intro hempty
        simp [hempty] at h
      simp [fault?, hnamed, maxAdminGroupLength, h]
    | illFormed hnamed hlength hmem h =>
      have hnamed : ¬ s.adminGroup.isEmpty := by simpa using hnamed
      have hlength : ¬ s.adminGroup.utf8ByteSize > maxAdminGroupLength := Nat.not_lt.mpr hlength
      rw [fault?, if_neg hnamed, if_neg hlength, if_pos (any_illFormed_iff.mpr ⟨_, hmem, h⟩)]
  covers s := by
    by_cases hnamed : s.adminGroup = ""
    case pos => exact .inr ⟨_, .missing hnamed⟩
    case neg =>
      by_cases hlength : s.adminGroup.utf8ByteSize ≤ 256
      case neg => exact .inr ⟨_, .tooLong (Nat.lt_of_not_le hlength)⟩
      case pos =>
        by_cases hplain : ∃ c ∈ s.adminGroup.toList, WhiteSpace c ∨ ControlCode c
        case pos =>
          obtain ⟨c, hmem, h⟩ := hplain
          exact .inr ⟨_, .illFormed hnamed hlength hmem h⟩
        case neg => exact .inl ⟨hnamed, hlength, by simpa using hplain⟩

namespace AuditSettings

/-- A file is written to a path whose pieces, as they are written, are short enough. -/
inductive Permitted : AuditSettings → Prop where
  | none : Permitted ⟨.none, none⟩
  | stderr : Permitted ⟨.stderr, none⟩
  | file {path : String} (htotal : path.utf8ByteSize ≤ 4096)
    (hpieces : ∀ piece ∈ FilePath.pieces path, piece.utf8ByteSize ≤ 255) :
    Permitted ⟨.file, some path⟩

inductive Refused : AuditSettings → SettingsFault → Prop where
  | pathMissing : Refused ⟨.file, none⟩ .auditPathMissing
  | pathUnused {sink : SinkKind} (hsink : sink ≠ .file) (path : String) :
    Refused ⟨sink, some path⟩ .auditPathUnused
  | pathTooLong {path : String} (h : 4096 < path.utf8ByteSize) :
    Refused ⟨.file, some path⟩ (.pathTooLong .auditLog)
  | pieceTooLong {path piece : String} (htotal : path.utf8ByteSize ≤ 4096)
    (hmem : piece ∈ FilePath.pieces path) (h : 255 < piece.utf8ByteSize) :
    Refused ⟨.file, some path⟩ (.componentTooLong .auditLog)

theorem fault?_of_notFile {sink : SinkKind} (hsink : sink ≠ .file) (path : String) :
    fault? ⟨sink, some path⟩ = some .auditPathUnused := by
  cases sink with
  | file => contradiction
  | none | stderr => rfl

theorem firstFault : FirstFault fault? Permitted Refused where
  of_sound h := by
    cases h with
    | none | stderr => rfl
    | file htotal hpieces =>
      exact PathSetting.fault?_of_withinLimits (FilePath.withinLimits_iff.mpr ⟨htotal, hpieces⟩)
  of_refused h := by
    cases h with
    | pathMissing => rfl
    | pathUnused hsink path => exact fault?_of_notFile hsink path
    | pathTooLong h => exact PathSetting.fault?_eq_some_iff.mpr (.tooLong h)
    | pieceTooLong htotal hmem h =>
      have hstep := FilePath.isStep_of_lt (Nat.lt_of_le_of_lt (by decide) h)
      have hcomponent := FilePath.mem_components_of_mem_pieces hmem hstep
      exact PathSetting.fault?_eq_some_iff.mpr (.componentTooLong htotal hcomponent h)
  covers s := by
    obtain ⟨sink, path⟩ := s
    cases path with
    | none =>
      cases sink with
      | none => exact .inl .none
      | stderr => exact .inl .stderr
      | file => exact .inr ⟨_, .pathMissing⟩
    | some path =>
      by_cases hsink : sink = .file
      case neg => exact .inr ⟨_, .pathUnused hsink path⟩
      case pos =>
        subst hsink
        by_cases htotal : path.utf8ByteSize ≤ 4096
        case neg => exact .inr ⟨_, .pathTooLong (Nat.lt_of_not_le htotal)⟩
        case pos =>
          by_cases hpieces : ∀ piece ∈ FilePath.pieces path, piece.utf8ByteSize ≤ 255
          case pos => exact .inl (.file htotal hpieces)
          case neg =>
            obtain ⟨piece, hmem, hlong⟩ :
                ∃ piece ∈ FilePath.pieces path, 255 < piece.utf8ByteSize := by
              simpa using hpieces
            exact .inr ⟨_, .pieceTooLong htotal hmem hlong⟩

end AuditSettings

namespace Settings

structure Permitted (s : Settings) : Prop where
  security : s.security.Sound
  audit : s.audit.Permitted

/-- The audit settings are looked at once the security settings are sound. -/
inductive Refused (s : Settings) : SettingsFault → Prop where
  | security {fault : SettingsFault} (h : s.security.Refused fault) : Refused s fault
  | audit {fault : SettingsFault} (hsecurity : s.security.Sound) (h : s.audit.Refused fault) :
    Refused s fault

theorem firstFault : FirstFault fault? Permitted Refused where
  of_sound h := by
    rw [fault?, SecuritySettings.firstFault.of_sound h.security,
      AuditSettings.firstFault.of_sound h.audit]
    rfl
  of_refused h := by
    cases h with
    | security h =>
      rw [fault?, SecuritySettings.firstFault.of_refused h]
      rfl
    | audit hsecurity h =>
      rw [fault?, SecuritySettings.firstFault.of_sound hsecurity,
        AuditSettings.firstFault.of_refused h]
      rfl
  covers s := by
    rcases SecuritySettings.firstFault.covers s.security with hsecurity | ⟨fault, h⟩
    · rcases AuditSettings.firstFault.covers s.audit with haudit | ⟨fault, h⟩
      · exact .inl ⟨hsecurity, haudit⟩
      · exact .inr ⟨fault, .audit hsecurity h⟩
    · exact .inr ⟨fault, .security h⟩

theorem validated_of_permitted {s : Settings} (h : s.Permitted) : s.validated = .ok s := by
  simp [validated, firstFault.of_sound h]

theorem validated_of_refused {s : Settings} {fault : SettingsFault} (h : s.Refused fault) :
    s.validated = .error (.invalid fault) := by
  simp [validated, firstFault.of_refused h]

/-- Settings are accepted as they are exactly if they break no rule, and of others the first rule
broken is reported. The components of a path are all short enough exactly if whatever stands
between its slashes is. -/
theorem accepted_or_first_fault (s : Settings) :
    (s.validated = .ok s ↔ s.Permitted) ∧
    (∀ e, s.validated = .error e ↔ ∃ fault, e = .invalid fault ∧ s.Refused fault) ∧
    (¬ s.Permitted ↔ ∃! fault, s.Refused fault) ∧
    ∀ path : String, "/".intercalate (FilePath.pieces path) = path ∧
      (∀ piece ∈ FilePath.pieces path, '/' ∉ piece.toList) ∧
      ((∀ c ∈ FilePath.components path, c.utf8ByteSize ≤ 255) ↔
        ∀ piece ∈ FilePath.pieces path, piece.utf8ByteSize ≤ 255) := by
  refine ⟨?_, fun e => ?_, firstFault.not_sound_iff, fun path =>
    ⟨FilePath.intercalate_pieces path, fun _ => FilePath.slash_not_mem_of_mem_pieces,
      FilePath.forall_components_iff_pieces (by decide)⟩⟩
  · rw [← firstFault.eq_none_iff, validated]
    cases s.fault? <;> simp
  · simp only [← firstFault.eq_some_iff, validated]
    cases s.fault? <;> simp [eq_comm]

section sample

def longPiece : String := String.ofList (List.replicate 64 '𝄞')

def longPath : String := "/".intercalate ["", "var", "", ".", longPiece]

def longPathSettings : Settings := ⟨⟨"ops", false⟩, ⟨.file, some longPath⟩⟩

/-- Sixty-four characters of four bytes each are one byte more than a component may have. -/
theorem accepted_or_first_fault_longPiece :
    longPathSettings.Refused (.componentTooLong .auditLog) ∧
    longPathSettings.validated = .error (.invalid (.componentTooLong .auditLog)) ∧
    ¬ longPathSettings.Permitted ∧ (∃! fault, longPathSettings.Refused fault) ∧
    ¬ (∀ c ∈ FilePath.components longPath, c.utf8ByteSize ≤ 255) ∧
    (⟨⟨"ops", false⟩, ⟨.stderr, none⟩⟩ : Settings).validated =
      .ok ⟨⟨"ops", false⟩, ⟨.stderr, none⟩⟩ := by
  have hsecurity : (⟨"ops", false⟩ : SecuritySettings).Sound :=
    ⟨by decide, by decide, by simp [WhiteSpace, ControlCode, whiteSpaceCodes]⟩
  have hchars : longPiece.toList = List.replicate 64 '𝄞' := String.toList_ofList
  have hplain : '/' ∉ longPiece.toList := by
    intro hslash
    have heq : '/' = '𝄞' := List.eq_of_mem_replicate (hchars ▸ hslash)
    exact absurd heq (by decide)
  have hpieces : FilePath.pieces longPath = ["", "var", "", ".", longPiece] :=
    FilePath.pieces_intercalate (by simp) (by simp [hplain])
  have hmem : longPiece ∈ FilePath.pieces longPath := by simp [hpieces]
  have hlong : 255 < longPiece.utf8ByteSize := by decide +kernel
  have hrefused : longPathSettings.Refused (.componentTooLong .auditLog) :=
    .audit hsecurity (.pieceTooLong (by decide +kernel) hmem hlong)
  obtain ⟨haccepted, hreported, hunique, hpaths⟩ := accepted_or_first_fault longPathSettings
  have herror := (hreported _).mpr ⟨_, rfl, hrefused⟩
  have hunpermitted : ¬ longPathSettings.Permitted := by
    intro hpermitted
    cases herror.symm.trans (haccepted.mpr hpermitted)
  refine ⟨hrefused, herror, hunpermitted, hunique.mp hunpermitted, ?_, ?_⟩
  · intro hcomponents
    exact absurd ((hpaths _).2.2.mp hcomponents _ hmem) (Nat.not_le.mpr hlong)
  · exact (accepted_or_first_fault _).1.mpr ⟨hsecurity, .stderr⟩

end sample

/-- Eighty-six characters are too long for a group if each has three bytes. -/
example : fault? ⟨⟨String.ofList (List.replicate 86 '€'), false⟩, ⟨.none, none⟩⟩ =
    some .adminGroupTooLong := by decide +kernel

end Settings

end NamespaceAccess
