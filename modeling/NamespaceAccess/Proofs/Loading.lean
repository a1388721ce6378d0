import NamespaceAccess.Proofs.DocumentReading
import NamespaceAccess.Proofs.SettingsRules

/-!
What a load of the settings returns. Its stages follow one another, and the first that fails
decides; settings come out only past the last one.
-/
namespace NamespaceAccess

theorem AuditSettings.Permitted.path_iff {s : AuditSettings} (h : s.Permitted) :
    s.path.isSome ↔ s.sink = .file := by
  cases h <;> simp

/-- A sink that the rules let pass is not refused for want of a path. -/
theorem AuditSettings.Permitted.openSink_ne {s : AuditSettings} (h : s.Permitted) (t : FileTree) :
    s.openSink t ≠ .error .pathRequired := by
  cases h with
  | none | stderr => simp [openSink]
  | @file path =>
    simp only [openSink]
    cases t.openToAppend path <;> simp

theorem fromUTF8?_eq_some_iff {bytes : ByteArray} {document : String} :
    String.fromUTF8? bytes = some document ↔ bytes = document.toUTF8 := by
  constructor
  · intro h
    unfold String.fromUTF8? at h
    split at h
    · cases h
      rfl
    · cases h
  · intro h
    subst h
    simp only [String.fromUTF8?, String.toUTF8_eq_toByteArray, dif_pos document.isValidUTF8]
    rfl

namespace Settings

/-- An argument wins over the environment, and both over the default. -/
inductive Chosen : Option String → Option String → String → Prop where
  | argument {path : String} {environment : Option String} : Chosen (some path) environment path
  | environment {path : String} : Chosen none (some path) path
  | default : Chosen none none "nsgate.toml"

/-- What is made of a document: the fault of the first stage that fails, or else what it says. -/
inductive FromDocument (document : String) : Except SettingsError Settings → Prop where
  | notToml (hparse : Toml.parse? document = none) : FromDocument document (.error .parse)
  | misfit {root : Toml.Entries} (hparse : Toml.parse? document = some root)
    (h : Misfit (.table .declared root)) : FromDocument document (.error .parse)
  | insecure {root : Toml.Entries} {s : Settings} {fault : SettingsFault}
    (hparse : Toml.parse? document = some root) (hread : ReadFrom (.table .declared root) s)
    (hfault : s.security.Refused fault) : FromDocument document (.error (.invalid fault))
  | unauditable {root : Toml.Entries} {s : Settings} {fault : SettingsFault}
    (hparse : Toml.parse? document = some root) (hread : ReadFrom (.table .declared root) s)
    (hsecurity : s.security.Sound) (hfault : s.audit.Refused fault) :
    FromDocument document (.error (.invalid fault))
  | accepted {root : Toml.Entries} {s : Settings}
    (hparse : Toml.parse? document = some root) (hread : ReadFrom (.table .declared root) s)
    (hsecurity : s.security.Sound) (haudit : s.audit.Permitted) : FromDocument document (.ok s)

/-- What is made of the file at a path, for every way in which files may answer. -/
inductive FromFile (readFile : String → Except FileError ByteArray) (path : String) :
    Except SettingsError Settings → Prop where
  | pathRefused {fault : SettingsFault} (h : PathSetting.settingsFile.Refuses path fault) :
    FromFile readFile path (.error (.invalid fault))
  | unreadable {e : FileError} (hpath : FilePath.WithinLimits path) (h : readFile path = .error e) :
    FromFile readFile path (.error (.io e))
  | tooLarge {bytes : ByteArray} (hpath : FilePath.WithinLimits path)
    (h : readFile path = .ok bytes) (hsize : 1048576 < bytes.size) :
    FromFile readFile path (.error (.invalid .fileTooLarge))
  | notUtf8 {bytes : ByteArray} (hpath : FilePath.WithinLimits path)
    (h : readFile path = .ok bytes) (hsize : bytes.size ≤ 1048576)
    (hutf8 : ∀ document : String, bytes ≠ document.toUTF8) :
    FromFile readFile path (.error (.invalid .fileNotUtf8))
  | document {document : String} {outcome : Except SettingsError Settings}
    (hpath : FilePath.WithinLimits path) (h : readFile path = .ok document.toUTF8)
    (hsize : document.toUTF8.size ≤ 1048576) (hdocument : FromDocument document outcome) :
    FromFile readFile path outcome

variable {document path : String} {root : Toml.Entries} {s : Settings}
  {outcome : Except SettingsError Settings} {readFile : String → Except FileError ByteArray}
  {argument environment : Option String} {fault : SettingsFault}

theorem chosen_iff : Chosen argument environment path ↔ path = chosenFile argument environment := by
  constructor
  · intro h
    cases h <;> rfl
  · intro h
    subst h
    match argument, environment with
    | some _, _ => exact .argument
    | none, some _ => exact .environment
    | none, none => exact .default

theorem ofToml_of_notToml (hparse : Toml.parse? document = none) :
    ofToml document = .error .parse := by
  simp [ofToml, parse?, hparse]

theorem ofToml_of_misfit (hparse : Toml.parse? document = some root)
    (h : Misfit (.table .declared root)) : ofToml document = .error .parse := by
  have hnode : ofNode? (.table .declared root) = none := by
    rw [Option.eq_none_iff_forall_ne_some]
    intro s hs
    exact misfit_iff.mp h s (ofNode?_eq_some_iff.mp hs)
  simp [ofToml, parse?, hparse, hnode]

theorem ofToml_of_readFrom (hparse : Toml.parse? document = some root)
    (hread : ReadFrom (.table .declared root) s) : ofToml document = s.validated := by
  simp [ofToml, parse?, hparse, ofNode?_eq_some_iff.mpr hread]

theorem fromDocument_ofToml (document : String) : FromDocument document (ofToml document) := by
  cases hparse : Toml.parse? document with
  | none => exact ofToml_of_notToml hparse ▸ .notToml hparse
  | some root =>
    by_cases hmisfit : Misfit (.table .declared root)
    case pos =>
      exact ofToml_of_misfit hparse hmisfit ▸ .misfit hparse hmisfit
    case neg =>
      obtain ⟨s, hread⟩ : ∃ s, ReadFrom (.table .declared root) s := by
        simpa [misfit_iff] using hmisfit
      rw [ofToml_of_readFrom hparse hread]
      rcases firstFault.covers s with ⟨hsecurity, haudit⟩ | ⟨fault, hrefused⟩
      · rw [validated_of_permitted ⟨hsecurity, haudit⟩]
        exact .accepted hparse hread hsecurity haudit
      · rw [validated_of_refused hrefused]
        cases hrefused with
        | security hfault => exact .insecure hparse hread hfault
        | audit hsecurity hfault => exact .unauditable hparse hread hsecurity hfault

theorem FromDocument.ofToml_eq (h : FromDocument document outcome) : ofToml document = outcome := by
  cases h with
  | notToml hparse => exact ofToml_of_notToml hparse
  | misfit hparse hmisfit => exact ofToml_of_misfit hparse hmisfit
  | insecure hparse hread hfault =>
    rw [ofToml_of_readFrom hparse hread, validated_of_refused (.security hfault)]
  | unauditable hparse hread hsecurity hfault =>
    rw [ofToml_of_readFrom hparse hread, validated_of_refused (.audit hsecurity hfault)]
  | accepted hparse hread hsecurity haudit =>
    rw [ofToml_of_readFrom hparse hread, validated_of_permitted ⟨hsecurity, haudit⟩]

theorem ofToml_eq_iff : ofToml document = outcome ↔ FromDocument document outcome := by
  constructor
  · intro h
    exact h ▸ fromDocument_ofToml document
  · exact FromDocument.ofToml_eq

theorem ofBytes_of_tooLarge {bytes : ByteArray} (hsize : 1048576 < bytes.size) :
    ofBytes bytes = .error (.invalid .fileTooLarge) := by
  simp [ofBytes, maxFileSize, hsize]

theorem ofBytes_of_notUtf8 {bytes : ByteArray} (hsize : bytes.size ≤ 1048576)
    (hutf8 : ∀ document : String, bytes ≠ document.toUTF8) :
    ofBytes bytes = .error (.invalid .fileNotUtf8) := by
  have hsize : ¬ bytes.size > maxFileSize := Nat.not_lt.mpr hsize
  have hnone : String.fromUTF8? bytes = none := by
    rw [Option.eq_none_iff_forall_ne_some]
    intro document hdocument
    exact hutf8 document (fromUTF8?_eq_some_iff.mp hdocument)
  simp [ofBytes, hsize, hnone]

theorem ofBytes_toUTF8 (hsize : document.toUTF8.size ≤ 1048576) :
    ofBytes document.toUTF8 = ofToml document := by
  have hsize : ¬ document.toUTF8.size > maxFileSize := Nat.not_lt.mpr hsize
  rw [ofBytes, if_neg hsize, fromUTF8?_eq_some_iff.mpr rfl]

theorem load_of_refuses
    (h : PathSetting.settingsFile.Refuses (chosenFile argument environment) fault) :
    load readFile argument environment = .error (.invalid fault) := by
  simp [load, PathSetting.fault?_eq_some_iff.mpr h]

theorem load_of_unreadable {e : FileError}
    (hpath : FilePath.WithinLimits (chosenFile argument environment))
    (h : readFile (chosenFile argument environment) = .error e) :
    load readFile argument environment = .error (.io e) := by
  simp [load, PathSetting.fault?_eq_none_iff.mpr hpath, h]

theorem load_of_bytes {bytes : ByteArray}
    (hpath : FilePath.WithinLimits (chosenFile argument environment))
    (h : readFile (chosenFile argument environment) = .ok bytes) :
    load readFile argument environment = ofBytes bytes := by
  simp [load, PathSetting.fault?_eq_none_iff.mpr hpath, h]

theorem fromFile_load :
    FromFile readFile (chosenFile argument environment) (load readFile argument environment) := by
  by_cases hpath : FilePath.WithinLimits (chosenFile argument environment)
  case neg =>
    obtain ⟨fault, h⟩ := (PathSetting.settingsFile.firstFault.covers _).resolve_left hpath
    rw [load_of_refuses h]
    exact .pathRefused h
  case pos =>
    cases hread : readFile (chosenFile argument environment) with
    | error e =>
      rw [load_of_unreadable hpath hread]
      exact .unreadable hpath hread
    | ok bytes =>
      rw [load_of_bytes hpath hread]
      by_cases hsize : bytes.size ≤ 1048576
      case neg =>
        have hsize : 1048576 < bytes.size := Nat.lt_of_not_le hsize
        rw [ofBytes_of_tooLarge hsize]
        exact .tooLarge hpath hread hsize
      case pos =>
        by_cases hutf8 : ∃ document : String, bytes = document.toUTF8
        case neg =>
          have hutf8 : ∀ document : String, bytes ≠ document.toUTF8 := by simpa using hutf8
          rw [ofBytes_of_notUtf8 hsize hutf8]
          exact .notUtf8 hpath hread hsize hutf8
        case pos =>
          obtain ⟨document, rfl⟩ := hutf8
          rw [ofBytes_toUTF8 hsize]
          exact .document hpath hread hsize (fromDocument_ofToml document)

theorem FromFile.load_eq (h : FromFile readFile (chosenFile argument environment) outcome) :
    load readFile argument environment = outcome := by
  cases h with
  | pathRefused h => exact load_of_refuses h
  | unreadable hpath h => exact load_of_unreadable hpath h
  | tooLarge hpath h hsize => rw [load_of_bytes hpath h, ofBytes_of_tooLarge hsize]
  | notUtf8 hpath h hsize hutf8 => rw [load_of_bytes hpath h, ofBytes_of_notUtf8 hsize hutf8]
  | document hpath h hsize hdocument =>
    rw [load_of_bytes hpath h, ofBytes_toUTF8 hsize, hdocument.ofToml_eq]

theorem load_eq_iff : load readFile argument environment = outcome ↔
    ∃ path, Chosen argument environment path ∧ FromFile readFile path outcome := by
  constructor
  · intro h
    exact ⟨_, chosen_iff.mpr rfl, h ▸ fromFile_load⟩
  · intro ⟨path, hchosen, hfile⟩
    obtain rfl := chosen_iff.mp hchosen
    exact hfile.load_eq

theorem FromDocument.permitted (h : FromDocument document (.ok s)) : s.Permitted := by
  cases h with
  | accepted hparse hread hsecurity haudit => exact ⟨hsecurity, haudit⟩

theorem FromFile.exists_document (h : FromFile readFile path (.ok s)) :
    ∃ document, FromDocument document (.ok s) := by
  cases h with
  | document hpath h hsize hdocument => exact ⟨_, hdocument⟩

inductive Obtained (s : Settings) : Prop where
  | loaded {readFile : String → Except FileError ByteArray} {argument environment : Option String}
    (h : load readFile argument environment = .ok s)
  | read {document : String} (h : ofToml document = .ok s)

theorem Obtained.permitted (h : Obtained s) : s.Permitted := by
  cases h with
  | loaded h =>
    obtain ⟨path, -, hfile⟩ := load_eq_iff.mp h
    obtain ⟨document, hdocument⟩ := hfile.exists_document
    exact hdocument.permitted
  | read h => exact (ofToml_eq_iff.mp h).permitted

/-- No file but the chosen one has a say, and not even that one where its path is refused. -/
theorem load_congr {other : String → Except FileError ByteArray}
    (h : FilePath.WithinLimits (chosenFile argument environment) →
      other (chosenFile argument environment) = readFile (chosenFile argument environment)) :
    load other argument environment = load readFile argument environment := by
  by_cases hpath : FilePath.WithinLimits (chosenFile argument environment)
  case pos => simp only [load, h hpath]
  case neg =>
    obtain ⟨fault, hrefuses⟩ := (PathSetting.settingsFile.firstFault.covers _).resolve_left hpath
    rw [load_of_refuses hrefuses, load_of_refuses hrefuses]

theorem parse?_eq_some_iff : parse? document = some s ↔
    ∃ root, Toml.parse? document = some root ∧ ReadFrom (.table .declared root) s := by
  simp only [parse?, Option.bind_eq_some_iff, ofNode?_eq_some_iff]

/-- A load returns settings only when no stage fails, and else says which was the first that did.
Whatever the way they came, settings keep all the rules, and an engine gets them as they are. -/
theorem load_fails_closed (readFile : String → Except FileError ByteArray)
    (argument environment : Option String) :
    (∀ outcome, load readFile argument environment = outcome ↔
      ∃ path, Chosen argument environment path ∧ FromFile readFile path outcome) ∧
    (∀ document outcome, ofToml document = outcome ↔ FromDocument document outcome) ∧
    (∀ path document, Chosen argument environment path → FilePath.WithinLimits path →
      readFile path = .ok document.toUTF8 → document.toUTF8.size ≤ 1048576 →
      load readFile argument environment = ofToml document) ∧
    (∀ other : String → Except FileError ByteArray,
      (∀ path, Chosen argument environment path → FilePath.WithinLimits path →
        other path = readFile path) →
      load other argument environment = load readFile argument environment) ∧
    ∀ s : Settings, Obtained s →
      s.validated = .ok s ∧
      s.security.Sound ∧ s.engineConfig = ⟨s.security.adminGroup, s.security.enforceVerbs⟩ ∧
      (s.audit.path.isSome ↔ s.audit.sink = .file) ∧
      ∀ files, s.audit.openSink files ≠ .error .pathRequired := by
  refine ⟨fun _ => load_eq_iff, fun _ _ => ofToml_eq_iff, ?_, ?_, ?_⟩
  · intro path document hchosen hpath hread hsize
    obtain rfl := chosen_iff.mp hchosen
    rw [load_of_bytes hpath hread, ofBytes_toUTF8 hsize]
  · intro other h
    exact load_congr fun hpath => h _ (chosen_iff.mpr rfl) hpath
  · intro s hs
    have hpermitted := hs.permitted
    exact ⟨validated_of_permitted hpermitted, hpermitted.security, rfl, hpermitted.audit.path_iff,
      hpermitted.audit.openSink_ne⟩

def sampleDocument : String :=
  "[security]\nadmin_group = \"ops\"\n\n[audit]\nsink = \"file\"\npath = \"audit.log\"\n"

def oversized : ByteArray := ⟨Array.replicate 1048577 0xff⟩

def sampleFiles (path : String) : Except FileError ByteArray :=
  if path = "conf/ns.toml" then .ok sampleDocument.toUTF8
  else if path = "big.toml" then .ok oversized
  else .error (.other "permission denied")

def sampleSettings : Settings := ⟨⟨"ops", false⟩, ⟨.file, some "audit.log"⟩⟩

def sampleFile (path : String) : Except FileError ByteArray :=
  if path = "conf/ns.toml" then .ok sampleDocument.toUTF8 else .error .missing

theorem fromDocument_sampleDocument : FromDocument sampleDocument (.ok sampleSettings) := by
  have hparse : parse? sampleDocument = some sampleSettings := by decide +kernel
  obtain ⟨root, hroot, hread⟩ := parse?_eq_some_iff.mp hparse
  refine .accepted hroot hread ?_ ?_
  · exact SecuritySettings.firstFault.eq_none_iff.mp (by decide +kernel)
  · exact AuditSettings.firstFault.eq_none_iff.mp (by decide +kernel)

theorem load_fails_closed_largeFile :
    load sampleFiles (some "conf/ns.toml") (some "big.toml") = .ok sampleSettings ∧
    load sampleFiles none (some "big.toml") = .error (.invalid .fileTooLarge) ∧
    load sampleFiles none none = .error (.io (.other "permission denied")) ∧
    load sampleFile (some "conf/ns.toml") none = load sampleFiles (some "conf/ns.toml") none ∧
    sampleSettings.validated = .ok sampleSettings := by
  have hconf : FilePath.WithinLimits "conf/ns.toml" := ⟨by decide +kernel, by decide +kernel⟩
  have hbig : FilePath.WithinLimits "big.toml" := ⟨by decide +kernel, by decide +kernel⟩
  have hdefault : FilePath.WithinLimits "nsgate.toml" := ⟨by decide +kernel, by decide +kernel⟩
  have hread : sampleFiles "big.toml" = .ok oversized := by simp [sampleFiles]
  have hoversized : 1048576 < oversized.size := by simp [oversized, ByteArray.size]
  have hsize : sampleDocument.toUTF8.size ≤ 1048576 := by decide +kernel
  have hloaded : load sampleFiles (some "conf/ns.toml") (some "big.toml") = .ok sampleSettings := by
    refine ((load_fails_closed _ _ _).1 _).mpr ⟨_, .argument, ?_⟩
    exact .document hconf (by simp [sampleFiles]) hsize fromDocument_sampleDocument
  refine ⟨hloaded, ?_, ?_, ?_, ?_⟩
  · refine ((load_fails_closed _ _ _).1 _).mpr ⟨_, .environment, ?_⟩
    exact .tooLarge hbig hread hoversized
  · refine ((load_fails_closed _ _ _).1 _).mpr ⟨_, .default, ?_⟩
    exact .unreadable hdefault (by simp [sampleFiles])
  · refine (load_fails_closed _ _ _).2.2.2.1 _ ?_
    intro path hchosen hpath
    cases hchosen
    simp [sampleFile, sampleFiles]
  · exact ((load_fails_closed sampleFiles none none).2.2.2.2 _ (.loaded hloaded)).1

end Settings

end NamespaceAccess
