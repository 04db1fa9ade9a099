import CodeOutline.Proofs.Run.Collecting
import CodeOutline.Proofs.Run.Files
import CodeOutline.Run.Report

/-! The course of a run: its stages one after the other, up to the report. -/

namespace CodeOutline.Run

open Activity

/-- The stages of a run over chosen files, up to its report and with the documents that it is about. -/
inductive Course (setting : Setting) (model? : Option Model) (folder : String) (sources : Sources) (s : State) :
    Report → List Document → State → Prop
  | nothingFound : sources.paths = [] →
      Course setting model? folder sources s ⟨0, [], 0, []⟩ [] (s.note [.event (.found 0)])
  | stopped {parsed : List Outline} {read : State} : sources.paths ≠ [] →
      sources.outlines setting (s.note [.event (.found sources.paths.length), .event (.stage .parsing)]) =
        (parsed, read) →
      model? = none ∨ parsed = [] →
      Course setting model? folder sources s ⟨sources.paths.length, parsed, 0, []⟩ []
        (read.note [.event (.parsed parsed.length)])
  | documented {parsed : List Outline} {read answered after : State} {model : Model} {docs : List Document}
      {exported : List String} : sources.paths ≠ [] →
      sources.outlines setting (s.note [.event (.found sources.paths.length), .event (.stage .parsing)]) =
        (parsed, read) →
      model? = some model → parsed ≠ [] →
      Documents.generateAll setting.network model parsed
        (read.note [.event (.parsed parsed.length), .event (.stage .documenting)]) = (docs, answered) →
      Documents.writeAll folder docs
        (answered.note [.event (.documented docs.length), .event (.stage .exporting)]) = (exported, after) →
      Course setting model? folder sources s ⟨sources.paths.length, parsed, docs.length, exported⟩ docs after

def afterReading (setting : Setting) (model? : Option Model) (folder : String) (found : Nat) (parsed : List Outline) :
    Activity Report := do
  emit (.parsed parsed.length)
  match model? with
  | some model =>
    if parsed.isEmpty then return ⟨found, parsed, 0, []⟩
    else Report.document setting model folder found parsed
  | none => return ⟨found, parsed, 0, []⟩

lemma ofSources_of_nil (setting : Setting) (model? : Option Model) (folder : String) {sources : Sources}
    (hp : sources.paths = []) (s : State) :
    Report.ofSources setting model? folder sources s = (⟨0, [], 0, []⟩, s.note [.event (.found 0)]) := by
  unfold Report.ofSources
  simp only [hp, List.isEmpty_nil, if_true]
  rfl

lemma ofSources_eq (setting : Setting) (model? : Option Model) (folder : String) {sources : Sources}
    (hp : sources.paths ≠ []) (s : State) :
    Report.ofSources setting model? folder sources s =
      let read := sources.outlines setting
        (s.note [.event (.found sources.paths.length), .event (.stage .parsing)])
      afterReading setting model? folder sources.paths.length read.1 read.2 := by
  have hb : sources.paths.isEmpty = false := List.isEmpty_eq_false_iff.mpr hp
  unfold Report.ofSources
  simp only [hb, Bool.false_eq_true, if_false]
  generalize sources.outlines setting = x
  rfl

lemma course_ofSources (setting : Setting) (model? : Option Model) (folder : String) (sources : Sources) (s : State) :
    ∃ docs, Course setting model? folder sources s (Report.ofSources setting model? folder sources s).1 docs
      (Report.ofSources setting model? folder sources s).2 := by
  by_cases hp : sources.paths = []
  · rw [ofSources_of_nil setting model? folder hp]
    exact ⟨[], .nothingFound hp⟩
  · rw [ofSources_eq setting model? folder hp]
    cases hx : sources.outlines setting (s.note [.event (.found sources.paths.length), .event (.stage .parsing)]) with
    | mk parsed read =>
      cases model? with
      | none => exact ⟨[], .stopped hp hx (Or.inl rfl)⟩
      | some model =>
        cases parsed with
        | nil => exact ⟨[], .stopped hp hx (Or.inr rfl)⟩
        | cons o rest => exact ⟨_, .documented hp hx rfl (List.cons_ne_nil o rest) rfl rfl⟩

lemma perform_eq {setting : Setting} {options : Options} {model? used : Option Model}
    (hu : modelInUse options model? = .ok used) (s : State) :
    perform setting options model? s =
      let collected := Sources.ofOrigin setting options.selectAll options.origin s
      match collected.1 with
      | .error failure => (.error failure, collected.2)
      | .ok sources =>
        let ended := Report.ofSources setting used options.outputFolder sources collected.2
        (.ok ended.1, ended.2) := by
  cases hs : Sources.ofOrigin setting options.selectAll options.origin s with
  | mk result collected =>
    rw [perform, hu]
    change (Sources.ofOrigin setting options.selectAll options.origin >>= _) s = _
    rw [bind_of_eq hs]
    cases result <;> rfl

lemma exists_course {setting : Setting} {options : Options} {model? : Option Model} {s after : State} {report : Report}
    (h : perform setting options model? s = (.ok report, after)) :
    ∃ used sources collected docs, modelInUse options model? = .ok used ∧
      Sources.ofOrigin setting options.selectAll options.origin s = (.ok sources, collected) ∧
      Course setting used options.outputFolder sources collected report docs after := by
  cases hu : modelInUse options model? with
  | error failure =>
    unfold perform at h
    rw [hu] at h
    cases h
  | ok used =>
    rw [perform_eq hu] at h
    cases hs : Sources.ofOrigin setting options.selectAll options.origin s with
    | mk result collected =>
      rw [hs] at h
      cases result with
      | error failure => cases h
      | ok sources =>
        cases h
        obtain ⟨docs, hc⟩ := course_ofSources setting used options.outputFolder sources collected
        exact ⟨used, sources, collected, docs, rfl, rfl, hc⟩

lemma modelInUse_eq_ok {options : Options} {model? used : Option Model} (h : modelInUse options model? = .ok used) :
    (options.extractOnly = true ∧ used = none) ∨ options.extractOnly = false ∧ used ≠ none ∧ model? = used := by
  unfold modelInUse at h
  split at h
  · exact Or.inl ⟨‹_›, (Except.ok.inj h).symm⟩
  · cases model? with
    | none => cases h
    | some model =>
      have hused := Except.ok.inj h
      exact Or.inr ⟨Bool.eq_false_iff.mpr ‹_›, by simp [← hused], hused⟩

/-- What the same run comes to when it stops before any documentation. -/
def extraction (setting : Setting) (options : Options) (disk : Disk) : State :=
  (perform setting { options with extractOnly := true } none (State.start disk)).2

lemma extraction_eq {setting : Setting} {options : Options} {disk : Disk} {sources : Sources} {collected : State}
    (hs : Sources.ofOrigin setting options.selectAll options.origin (State.start disk) = (.ok sources, collected)) :
    extraction setting options disk =
      (Report.ofSources setting none options.outputFolder sources collected).2 := by
  have hu : modelInUse { options with extractOnly := true } none = .ok none := rfl
  rw [extraction, perform_eq hu]
  simp only [hs]

lemma past_extraction_of_nil {setting : Setting} {options : Options} {disk : Disk} {sources : Sources}
    {collected : State}
    (hs : Sources.ofOrigin setting options.selectAll options.origin (State.start disk) = (.ok sources, collected))
    (hp : sources.paths = []) : (extraction setting options disk).past = collected.past := by
  rw [extraction_eq hs, ofSources_of_nil setting none options.outputFolder hp]
  rfl

lemma past_extraction {setting : Setting} {options : Options} {disk : Disk} {sources : Sources} {collected read : State}
    {parsed : List Outline}
    (hs : Sources.ofOrigin setting options.selectAll options.origin (State.start disk) = (.ok sources, collected))
    (hp : sources.paths ≠ [])
    (hr : sources.outlines setting
      (collected.note [.event (.found sources.paths.length), .event (.stage .parsing)]) = (parsed, read)) :
    (extraction setting options disk).past = read.past := by
  rw [extraction_eq hs, ofSources_eq setting none options.outputFolder hp, hr]
  rfl

end CodeOutline.Run
