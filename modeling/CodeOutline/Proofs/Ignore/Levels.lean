import CodeOutline.Ignore.User
import CodeOutline.Proofs.Document.Lookup

/-! The ignore rules in force before and after documents have been exported. -/

namespace CodeOutline.Ignore

open Document

variable {d after : Disk} {output folder path name : String} {place : Disk.Place}

/-- A path below some folder with a last name that is no document's. -/
def isSettings (path : String) : Bool :=
  !Path.isAbsolute path && !(Disk.steps path).contains ".." &&
    (Disk.steps path).getLast?.any fun name => name != "." && name.toList.getLast? != some 'd'

lemma isSettings_iff : isSettings path = true ↔ Path.isAbsolute path = false ∧ ".." ∉ Disk.steps path ∧
    ∃ above name, Disk.steps path = above ++ [name] ∧ name ≠ "." ∧ name.toList.getLast? ≠ some 'd' := by
  rw [isSettings, Bool.and_eq_true, Bool.and_eq_true, and_assoc]
  refine and_congr (by simp) (and_congr (by simp) ?_)
  rw [Option.any_eq_true]
  simp only [List.getLast?_eq_some_iff, Bool.and_eq_true, bne_iff_ne]
  exact ⟨fun ⟨name, ⟨above, hsteps⟩, hname⟩ => ⟨above, name, hsteps, hname⟩,
    fun ⟨above, name, hsteps, hname⟩ => ⟨name, ⟨above, hsteps⟩, hname⟩⟩

namespace Rules

lemma ofFile_eq (h : (after.read path).toOption = (d.read path).toOption) (root : String) :
    ofFile after root path = ofFile d root path := by
  rw [ofFile, ofFile]
  cases hread : d.read path <;> cases hread' : after.read path <;> simp_all [Except.toOption]

end Rules

lemma sidesteps_join (hfolder : Sidesteps d output folder) (hpath : isSettings path = true) :
    Sidesteps d output (Path.join folder path) := by
  obtain ⟨hrelative, hup, _⟩ := isSettings_iff.mp hpath
  exact hfolder.join hrelative hup

lemma eq_ok_iff {α ε : Type} {x y : Except ε α} {a : α} (h : x.toOption = y.toOption) : x = .ok a ↔ y = .ok a := by
  cases x <;> cases y <;> simp_all [Except.toOption]

section

variable (hd : IsPlain output d) (h : Overlays output d after)

include hd h

lemma read_join_eq (hsidesteps : Sidesteps d output (Path.join folder path)) (hpath : isSettings path = true) :
    (after.read (Path.join folder path)).toOption = (d.read (Path.join folder path)).toOption := by
  obtain ⟨hrelative, hup, above, name, hsteps, hdot, hlast⟩ := isSettings_iff.mp hpath
  apply h.toOption_read hd hsidesteps
  have hname : name ≠ ".." := by
    rintro rfl
    simp [hsteps] at hup
  rw [Disk.placeOf_join d hrelative, hsteps, List.foldl_append, List.foldl_cons, List.foldl_nil,
    Disk.move_name hdot hname]
  exact not_isTarget hlast

lemma status_join_eq (hfolder : Sidesteps d output folder) (hpath : isSettings name = true)
    (hsteps : Disk.steps name = [name]) (hhidden : name.toList.head? = some '.') :
    (after.status (Path.join folder name)).toOption = (d.status (Path.join folder name)).toOption := by
  obtain ⟨hrelative, hup, above, last, hlast, hdot, hletter⟩ := isSettings_iff.mp hpath
  obtain rfl : last = name := by
    have hsame := congrArg List.getLast? hlast
    rw [hsteps] at hsame
    simpa using hsame.symm
  have hname : last ≠ ".." := by
    rintro rfl
    simp [hsteps] at hup
  apply h.toOption_status hd (hfolder.join hrelative hup)
  rw [Disk.placeOf_join d hrelative, hsteps, List.foldl_cons, List.foldl_nil, Disk.move_name hdot hname]
  exact not_or.mpr ⟨not_isMissing hd hhidden hdot hname, not_isTarget hletter⟩

end

namespace Level

def realFolder? (content : List UInt8) : Option String :=
  (textLines content).head?.bind fun line =>
    if gitdirMark.isPrefixOf line then some (String.ofList (line.drop gitdirMark.length)) else none

def sharedFolder? (d : Disk) (real : String) : Option String :=
  (firstLine? d (Path.join real "commondir")).map fun shared =>
    if shared.head? = some '.' then Path.join real (String.ofList shared) else String.ofList shared

/-- Where a `.git` file with this content has something looked for. -/
def gitLookups (d : Disk) (content : List UInt8) : List String :=
  (realFolder? content).toList.flatMap fun real =>
    Path.join real "commondir" :: (sharedFolder? d real).toList.map (Path.join · "info/exclude")

lemma gitFolder?_of_file {content : List UInt8} (h : d.status (Path.join folder ".git") = .ok (.file content)) :
    gitFolder? d folder = (realFolder? content).bind (sharedFolder? d) := by
  have hread : d.read (Path.join folder ".git") = .ok content := by
    rw [Disk.read, h]
    rfl
  simp only [gitFolder?, h]
  rw [firstLine?, hread, realFolder?]
  simp only
  cases (textLines content).head? with
  | none => rfl
  | some line =>
    simp only [Option.bind_some, Option.bind_eq_bind]
    split
    · rw [Option.bind_some, sharedFolder?]
      cases firstLine? d (Path.join (String.ofList (List.drop gitdirMark.length line)) "commondir") with
      | none => rfl
      | some shared =>
        rw [Option.bind_some, Option.map_some]
        split <;> rfl
    · rfl

lemma gitFolder?_of_other (h : ∀ content, d.status (Path.join folder ".git") ≠ .ok (.file content)) :
    gitFolder? d folder = some (Path.join folder ".git") := by
  rw [gitFolder?]
  cases hstatus : d.status (Path.join folder ".git") with
  | error failure => simp
  | ok e =>
    cases e with
    | file content => exact absurd hstatus (h content)
    | folder | link target => simp

lemma firstLine?_eq (h : (after.read path).toOption = (d.read path).toOption) :
    firstLine? after path = firstLine? d path := by
  rw [firstLine?, firstLine?]
  cases hread : d.read path <;> cases hread' : after.read path <;> simp_all [Except.toOption]

section

variable (hd : IsPlain output d) (h : Overlays output d after) (hfolder : Sidesteps d output folder)
  (hgit : ∀ content, d.find? (d.placeOf folder ++ [".git"]) = some (.file content) → ∀ path ∈ gitLookups d content,
    Sidesteps d output path)

include hd h hfolder hgit

lemma exclude_eq : (ofFolder after folder).exclude = (ofFolder d folder).exclude := by
  have hstatus := status_join_eq hd h hfolder (by decide : isSettings ".git" = true) rfl rfl
  simp only [ofFolder]
  by_cases hfile : ∃ content, d.status (Path.join folder ".git") = .ok (.file content)
  · obtain ⟨content, hcontent⟩ := hfile
    have hfind : d.find? (d.placeOf folder ++ [".git"]) = some (.file content) := by
      have hjoin : d.placeOf (Path.join folder ".git") = d.placeOf folder ++ [".git"] := Disk.placeOf_join d rfl
      rw [← hjoin]
      exact Disk.find?_of_status hd.linkFree hcontent
    have hlookups := hgit content hfind
    rw [gitFolder?_of_file hcontent, gitFolder?_of_file ((eq_ok_iff hstatus).mpr hcontent)]
    cases hreal : realFolder? content with
    | none => rfl
    | some real =>
      simp only [gitLookups, hreal, Option.toList_some, List.flatMap_cons, List.flatMap_nil, List.append_nil,
        List.forall_mem_cons] at hlookups
      obtain ⟨hcommon, hexclude⟩ := hlookups
      have hshared : sharedFolder? after real = sharedFolder? d real := by
        rw [sharedFolder?, sharedFolder?, firstLine?_eq (read_join_eq hd h hcommon (by decide))]
      rw [Option.bind_some, Option.bind_some, hshared]
      cases hfound : sharedFolder? d real with
      | none => rfl
      | some shared =>
        have hpath : Sidesteps d output (Path.join shared "info/exclude") :=
          hexclude _ (by rw [hfound]; exact List.mem_singleton_self _)
        exact Rules.ofFile_eq (read_join_eq hd h hpath (by decide)) folder
  · have hother : ∀ content, d.status (Path.join folder ".git") ≠ .ok (.file content) := fun content hcontent =>
      hfile ⟨content, hcontent⟩
    rw [gitFolder?_of_other hother, gitFolder?_of_other fun content => mt (eq_ok_iff hstatus).mp (hother content)]
    have hinside := sidesteps_join (sidesteps_join hfolder (by decide : isSettings ".git" = true))
      (by decide : isSettings "info/exclude" = true)
    exact Rules.ofFile_eq (read_join_eq hd h hinside (by decide)) folder

theorem ofFolder_eq : ofFolder after folder = ofFolder d folder := by
  have hread : ∀ path, isSettings path = true →
      Rules.ofFile after folder (Path.join folder path) = Rules.ofFile d folder (Path.join folder path) :=
    fun path hpath => Rules.ofFile_eq (read_join_eq hd h (sidesteps_join hfolder hpath) hpath) folder
  have hroot : isRepositoryRoot after folder = isRepositoryRoot d folder := by
    rw [isRepositoryRoot, isRepositoryRoot, Disk.exists?_eq, Disk.exists?_eq, Disk.exists?_eq, Disk.exists?_eq,
      status_join_eq hd h hfolder (by decide : isSettings ".git" = true) rfl rfl,
      status_join_eq hd h hfolder (by decide : isSettings ".jj" = true) rfl rfl]
  have hexclude := exclude_eq hd h hfolder hgit
  simp only [ofFolder] at hexclude ⊢
  rw [hexclude, hread ".ignore" (by decide), hread ".gitignore" (by decide), hroot]

end

end Level

namespace User

def lookups (d : Disk) (env : Environment) : List String :=
  ((env.get? "HOME").map (Path.join · ".gitconfig")).toList ++
    ((configFolder? env).map (Path.join · "git/config")).toList ++ (rulesFile? d env).toList

variable {env : Environment}

lemma excludesFile?_eq (h : (after.read path).toOption = (d.read path).toOption) :
    excludesFile? after env path = excludesFile? d env path := by
  rw [excludesFile?, excludesFile?]
  cases hread : d.read path <;> cases hread' : after.read path <;> simp_all [Except.toOption]

variable (hd : IsPlain output d) (h : Overlays output d after)
  (hlookups : ∀ path ∈ lookups d env, Sidesteps d output path)

include hd h hlookups

omit hlookups in
lemma bind_excludesFile?_eq {folder? : Option String} (hpath : isSettings path = true)
    (hfolders : ∀ folder, folder? = some folder → Sidesteps d output (Path.join folder path)) :
    (folder?.bind fun folder => excludesFile? after env (Path.join folder path)) =
      folder?.bind fun folder => excludesFile? d env (Path.join folder path) := by
  cases folder? with
  | none => rw [Option.bind_none, Option.bind_none]
  | some folder =>
    rw [Option.bind_some, Option.bind_some, excludesFile?_eq (read_join_eq hd h (hfolders folder rfl) hpath)]

lemma rulesFile?_eq : rulesFile? after env = rulesFile? d env := by
  have hhome : ∀ home, env.get? "HOME" = some home → Sidesteps d output (Path.join home ".gitconfig") :=
    fun home hhome => hlookups _ (by simp [lookups, hhome])
  have hconfig : ∀ folder, configFolder? env = some folder → Sidesteps d output (Path.join folder "git/config") :=
    fun folder hfolder => hlookups _ (by simp [lookups, hfolder])
  rw [rulesFile?, rulesFile?, bind_excludesFile?_eq hd h (by decide) hhome, bind_excludesFile?_eq hd h (by decide) hconfig]

theorem rules_eq (hrules : ∀ path, rulesFile? d env = some path → (d.placeOf path).dropLast ≠ d.placeOf output) :
    rules after env = rules d env := by
  rw [rules, rules, rulesFile?_eq hd h hlookups]
  cases hfile : rulesFile? d env with
  | none => rfl
  | some path =>
    simp only [h.keeps.current_eq]
    apply Rules.ofFile_eq
    apply h.toOption_read hd (hlookups path (by simp [lookups, hfile]))
    rintro ⟨_, _, source, hplace⟩
    exact hrules path hfile (by simp [hplace])

end User

end CodeOutline.Ignore
