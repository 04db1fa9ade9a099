import CodeOutline.Config.Basic
import CodeOutline.Proofs.Disk.Way
import CodeOutline.Proofs.Text.Lowercase
import CodeOutline.Repository.Client

/-! Which files are offered as source code. The languages and the scan of a folder take an extension in any case of its
letters, the list of a repository takes it in small letters only. -/

namespace CodeOutline

namespace Path

/-- What follows the last slash. -/
def lastPiece (path : String) : List Char := (Text.splitAt '/' path.toList).getLastD []

/-- The last piece has a dot that does not begin it, and it does not end in a dot. -/
def HasExtension (path : String) : Prop := '.' ∈ (lastPiece path).tail ∧ (lastPiece path).getLast? ≠ some '.'

instance : DecidablePred HasExtension := fun _ => inferInstanceAs (Decidable (_ ∧ _))

/-- What follows the last dot of the last piece. -/
def ending (path : String) : String := String.ofList ((Text.splitAt '.' (lastPiece path)).getLastD [])

/-- The path leads through a folder to a name, which is cut at its last dot. -/
structure IsCut (path folder name : String) (stem extension : List Char) : Prop where
  path_eq : path = folder ++ name
  join_eq : path = join folder name
  isEntryName : Disk.IsEntryName name
  name_eq : name.toList = stem ++ '.' :: extension
  stem_ne_nil : stem ≠ []
  not_mem : '.' ∉ extension
  ending_eq : ending path = String.ofList extension

variable {path folder name : String} {stem extension : List Char}

lemma HasExtension.exists_stem (h : HasExtension path) : ∃ stem extension,
    lastPiece path = stem ++ '.' :: extension ∧ stem ≠ [] ∧ '.' ∉ extension ∧ ending path = String.ofList extension := by
  obtain ⟨hdot, _⟩ := h
  obtain ⟨first, rest, hpiece⟩ : ∃ first rest, lastPiece path = first :: rest := by
    cases hpiece : lastPiece path with
    | nil => simp [hpiece] at hdot
    | cons first rest => exact ⟨first, rest, rfl⟩
  rw [hpiece, List.tail_cons] at hdot
  obtain ⟨before, extension, hrest, hnone⟩ := Text.exists_last_mark hdot
  have hcut : lastPiece path = (first :: before) ++ '.' :: extension := by rw [hpiece, hrest, List.cons_append]
  refine ⟨_, extension, hcut, by simp, hnone, ?_⟩
  rw [ending, hcut, Text.getLastD_splitAt hnone]

lemma HasExtension.isEntryName (h : HasExtension path) : Disk.IsEntryName (String.ofList (lastPiece path)) := by
  have hends : ∀ text : String, text.toList.getLast? = some '.' → String.ofList (lastPiece path) ≠ text := by
    rintro _ htext rfl
    rw [String.toList_ofList] at htext
    exact h.2 htext
  refine ⟨hends "." rfl, hends ".." rfl, ?_, ?_⟩
  · rw [Ne, ← String.toList_eq_nil_iff, String.toList_ofList]
    intro hnil
    have hdot := h.1
    rw [hnil] at hdot
    cases hdot
  · obtain ⟨_, _, _, hslash⟩ := Text.exists_eq_append_last '/' path.toList
    rwa [String.toList_ofList]

lemma HasExtension.exists_folder (h : HasExtension path) : ∃ folder,
    path = folder ++ String.ofList (lastPiece path) ∧ path = join folder (String.ofList (lastPiece path)) := by
  obtain ⟨folder, hpath, hends, _⟩ := Text.exists_eq_append_last '/' path.toList
  have htext : path = String.ofList folder ++ String.ofList (lastPiece path) := by
    rw [← String.ofList_append, lastPiece, ← hpath, String.ofList_toList]
  have hopened : opened (String.ofList folder) = String.ofList folder := by
    apply if_pos
    rwa [String.toList_ofList, ← String.toList_eq_nil_iff, String.toList_ofList]
  exact ⟨_, htext, by rw [Path.join_eq _ h.isEntryName.isAbsolute_eq, hopened, ← htext]⟩

lemma HasExtension.exists_isCut (h : HasExtension path) :
    ∃ folder name stem extension, IsCut path folder name stem extension := by
  obtain ⟨folder, hpath, hjoin⟩ := h.exists_folder
  obtain ⟨stem, extension, hpiece, hstem, hnone, hending⟩ := h.exists_stem
  have hname : (String.ofList (lastPiece path)).toList = stem ++ '.' :: extension := by
    rw [String.toList_ofList, hpiece]
  exact ⟨folder, _, stem, extension, hpath, hjoin, h.isEntryName, hname, hstem, hnone, hending⟩

end Path

namespace Language

lemma toLower_of_mem_supportedExtensions {extension : String} (h : extension ∈ supportedExtensions) :
    extension.toLower = extension := by
  have hall : ∀ extension ∈ supportedExtensions, extension.toList.map Char.toLower = extension.toList := by decide
  apply String.toList_inj.mp
  rw [Text.toList_toLower, hall extension h]

lemma isSome_ofExtension?_iff {extension : String} :
    (ofExtension? extension).isSome = true ↔ extension.toLower ∈ supportedExtensions := by
  rw [ofExtension?, List.find?_isSome, supportedExtensions, List.mem_flatMap]
  simp

end Language

lemma mem_includeExtensions_iff {extension : String} :
    extension ∈ Config.Scan.standard.includeExtensions ↔ extension ∈ Language.supportedExtensions := by
  have hin : ∀ extension ∈ Config.Scan.standard.includeExtensions, extension ∈ Language.supportedExtensions := by decide
  have hback : ∀ extension ∈ Language.supportedExtensions, extension ∈ Config.Scan.standard.includeExtensions := by decide
  exact ⟨hin extension, hback extension⟩

/-- How the path of a file is judged by those who choose files, `extension` being what its name has after the last
dot. -/
structure Offers (path extension : String) : Prop where
  includes_iff : Config.Scan.standard.includes path = true ↔ (Language.ofExtension? extension).isSome = true
  isCodePath_iff : Repository.Client.isCodePath path = true ↔
    (Language.ofExtension? extension).isSome = true ∧ extension.toLower = extension
  alike_iff : Repository.Client.isCodePath path = Config.Scan.standard.includes path ↔
    ((Language.ofExtension? extension).isSome = true → extension.toLower = extension)
  ofPath_eq : ∀ language, Language.ofExtension? extension = some language →
    Language.ofPath path = language ∧ extension.toLower ∈ language.extensions

namespace Path.IsCut

variable {path folder name : String} {stem extension : List Char}

lemma includes_iff (h : IsCut path folder name stem extension) :
    Config.Scan.standard.includes path = true ↔ (Language.ofExtension? (ending path)).isSome = true := by
  have hextension : extension? path = some (ending path) := by
    rw [h.join_eq, h.isEntryName.extension?_join h.name_eq h.not_mem h.stem_ne_nil, ← h.join_eq, h.ending_eq]
  have hlower : ∀ other ∈ Config.Scan.standard.includeExtensions, other.toLower = other :=
    fun other hmem => Language.toLower_of_mem_supportedExtensions (mem_includeExtensions_iff.mp hmem)
  rw [Config.Scan.includes, hextension, Language.isSome_ofExtension?_iff, ← mem_includeExtensions_iff]
  simp only [List.any_eq_true, beq_iff_eq]
  constructor
  · rintro ⟨other, hmem, heq⟩
    rwa [← heq, hlower other hmem]
  · exact fun hmem => ⟨_, hmem, hlower _ hmem⟩

lemma isCodePath_iff (h : IsCut path folder name stem extension) :
    Repository.Client.isCodePath path = true ↔
      (Language.ofExtension? (ending path)).isSome = true ∧ (ending path).toLower = ending path := by
  have hcut : Text.cutLast? '.' path.toList = some (folder.toList ++ stem, extension) := by
    rw [h.path_eq, String.toList_append, h.name_eq, ← List.append_assoc, Text.cutLast?_append _ h.not_mem]
  rw [Repository.Client.isCodePath, hcut, Language.isSome_ofExtension?_iff, h.ending_eq]
  simp only [List.contains_iff_mem]
  constructor
  · intro hmem
    have hlower := Language.toLower_of_mem_supportedExtensions hmem
    exact ⟨hlower.symm ▸ hmem, hlower⟩
  · rintro ⟨hmem, hlower⟩
    exact hlower ▸ hmem

lemma ofPath_eq (h : IsCut path folder name stem extension) {language : Language}
    (hlanguage : Language.ofExtension? (ending path) = some language) : Language.ofPath path = language := by
  have hsuffix : suffix? path = some (ending path) := by
    rw [h.join_eq, h.isEntryName.suffix?_join h.name_eq h.not_mem, ← h.join_eq, h.ending_eq]
  rw [Language.ofPath, hsuffix, Option.map_some, Language.ofExtension, hlanguage]
  rfl

end Path.IsCut

/-- A scan of a folder offers the files that a language is known for, whatever the case of their extension's letters.
The list of a repository offers those of them whose extension is in small letters. -/
theorem offers_of_hasExtension {path : String} (h : Path.HasExtension path) : Offers path (Path.ending path) := by
  obtain ⟨folder, name, stem, extension, hcut⟩ := h.exists_isCut
  refine ⟨hcut.includes_iff, hcut.isCodePath_iff, ?_, fun language hlanguage => ⟨hcut.ofPath_eq hlanguage, ?_⟩⟩
  · rw [Bool.eq_iff_iff, hcut.includes_iff, hcut.isCodePath_iff, and_iff_left_iff_imp]
  · exact Language.ofExtension?_mem hlanguage

theorem offers_script_with_two_dots :
    let path := "lib.d/View.test.tsx"
    Path.HasExtension path ∧ Path.ending path = "tsx" ∧ Language.ofPath path = .script ∧ Offers path "tsx" := by
  have hends : Path.HasExtension "lib.d/View.test.tsx" := by decide +kernel
  have hending : Path.ending "lib.d/View.test.tsx" = "tsx" := by decide +kernel
  exact ⟨hends, hending, by decide +kernel, hending ▸ offers_of_hasExtension hends⟩

/-- A file with an extension in capitals is offered in a folder and not in a repository. -/
theorem not_isCodePath_of_capitals :
    Path.HasExtension "src/a.JS" ∧ Path.ending "src/a.JS" = "JS" ∧ Language.ofExtension? "JS" = some .script ∧
      Config.Scan.standard.includes "src/a.JS" = true ∧ Repository.Client.isCodePath "src/a.JS" = false := by
  have hends : Path.HasExtension "src/a.JS" := by decide +kernel
  have hending : Path.ending "src/a.JS" = "JS" := by decide +kernel
  have hlanguage : Language.ofExtension? "JS" = some .script := by decide +kernel
  obtain ⟨_, _, _, _, hcut⟩ := hends.exists_isCut
  exact ⟨hends, hending, hlanguage, hcut.includes_iff.mpr (by rw [hending, hlanguage]; rfl), by decide +kernel⟩

end CodeOutline
