import CodeOutline.Path
import CodeOutline.Proofs.Text.Split

/-! Joined paths: what a path joined to a folder names, and what of it depends on the folder. -/

namespace CodeOutline

namespace Path

variable {folder path : String}

/-- A folder as it stands before the paths that are joined to it. -/
def opened (folder : String) : String :=
  if folder = "" ∨ folder.toList.getLast? = some '/' then folder else folder ++ "/"

lemma join_eq (folder : String) (h : isAbsolute path = false) : join folder path = opened folder ++ path := by
  simp only [join, h, Bool.false_eq_true, if_false, opened]
  split <;> rfl

lemma isAbsolute_append (h : folder ≠ "") : isAbsolute (folder ++ path) = isAbsolute folder := by
  obtain ⟨c, rest, hc⟩ := List.exists_cons_of_ne_nil (mt String.toList_eq_nil_iff.mp h)
  simp [isAbsolute, hc]

lemma isAbsolute_join (h : isAbsolute path = false) : isAbsolute (join folder path) = isAbsolute folder := by
  simp only [join, h, Bool.false_eq_true, if_false]
  split
  · by_cases hf : folder = ""
    · rw [hf, String.empty_append, h]
      rfl
    · exact isAbsolute_append hf
  · rename_i hends
    have hf : folder ≠ "" := fun hf => hends (Or.inl hf)
    rw [String.append_assoc, isAbsolute_append hf]

lemma pieces_append_slash : pieces (folder ++ "/" ++ path) = pieces folder ++ pieces path := by
  have htext : (folder ++ "/" ++ path).toList = folder.toList ++ '/' :: path.toList := by simp
  rw [pieces, htext, Text.splitAt_append_mark, List.filter_append]
  rfl

lemma pieces_join (h : isAbsolute path = false) : pieces (join folder path) = pieces folder ++ pieces path := by
  simp only [join, h, Bool.false_eq_true, if_false]
  split
  · rename_i hends
    obtain rfl | hslash := hends
    · rw [String.empty_append]
      exact (List.nil_append _).symm
    · obtain ⟨front, hfront⟩ := List.getLast?_eq_some_iff.mp hslash
      have hfolder : folder = String.ofList front ++ "/" := by
        rw [← String.ofList_toList (s := folder), hfront, String.ofList_append]
      have hclosed : pieces (String.ofList front ++ "/" ++ "") = _ := pieces_append_slash
      have hnone : pieces "" = [] := rfl
      rw [String.append_empty, hnone, List.append_nil] at hclosed
      rw [hfolder, pieces_append_slash, hclosed]
  · exact pieces_append_slash

/-- The components that a path names, wherever it starts. -/
def named (path : String) : List Component := ((pieces path).map Component.ofText).filter (· ≠ .current)

/-- Before the components that a path names stands at most where it starts. -/
lemma exists_components_eq (path : String) : ∃ start, components path = start ++ named path := by
  unfold components named
  simp only
  split
  · exact ⟨[.root], rfl⟩
  · split
    · rename_i hstart
      exact ⟨[.current], by simp [hstart]⟩
    · exact ⟨[], rfl⟩

lemma isAbsolute_of_normal (h : ∀ c ∈ components path, ∃ name, c = .normal name) : isAbsolute path = false := by
  by_contra habsolute
  have hroot : .root ∈ components path := by
    rw [components, if_pos (by simpa using habsolute)]
    exact List.mem_cons_self
  obtain ⟨name, hname⟩ := h _ hroot
  cases hname

lemma named_ne_nil (h : ∀ c ∈ components path, ∃ name, c = .normal name) (hne : path ≠ "") : named path ≠ [] := by
  have habsolute := isAbsolute_of_normal h
  obtain ⟨c, rest, htext⟩ := List.exists_cons_of_ne_nil (mt String.toList_eq_nil_iff.mp hne)
  have hc : c ≠ '/' := by
    rintro rfl
    simp [isAbsolute, htext] at habsolute
  obtain ⟨piece, more, hsplit⟩ := List.exists_cons_of_ne_nil (Text.splitAt_ne_nil '/' rest)
  have hpieces : pieces path = (c :: piece) :: more.filter (· ≠ []) := by
    simp [pieces, htext, Text.splitAt, hc, hsplit]
  by_cases hfirst : Component.ofText (c :: piece) = .current
  · have hcurrent : .current ∈ components path := by
      simp [components, habsolute, hpieces, hfirst]
    obtain ⟨name, hname⟩ := h _ hcurrent
    cases hname
  · simp [named, hpieces, hfirst]

lemma named_join (h : isAbsolute path = false) : named (join folder path) = named folder ++ named path := by
  rw [named, pieces_join h, List.map_append, List.filter_append]
  rfl

lemma fileName?_join (folder : String) (h : isAbsolute path = false) (hn : named path ≠ []) :
    fileName? (join folder path) = fileName? path := by
  obtain ⟨start, hstart⟩ := exists_components_eq path
  obtain ⟨start', hstart'⟩ := exists_components_eq (join folder path)
  have hlast : (components (join folder path)).getLast? = (components path).getLast? := by
    rw [hstart, hstart', named_join h, ← List.append_assoc, List.getLast?_append_of_ne_nil _ hn,
      List.getLast?_append_of_ne_nil _ hn]
  rw [fileName?, hlast, fileName?]

lemma extension?_eq_some_iff {name : String} : extension? path = some name ↔
    ∃ stem extension, fileName? path = some (String.ofList (stem ++ '.' :: extension)) ∧ stem ≠ [] ∧ '.' ∉ extension ∧
      String.ofList extension = name := by
  rw [extension?]
  constructor
  · intro h
    obtain ⟨file, hfile, h⟩ := Option.bind_eq_some_iff.mp h
    obtain ⟨⟨stem, extension⟩, hcut, h⟩ := Option.bind_eq_some_iff.mp h
    obtain ⟨htext, hdot⟩ := Text.cutLast?_eq_some_iff.mp hcut
    by_cases hstem : stem = []
    · simp [hstem] at h
    · simp only [if_neg hstem] at h
      exact ⟨stem, extension, by rw [← htext, String.ofList_toList, hfile], hstem, hdot, Option.some.inj h⟩
  · rintro ⟨stem, extension, hfile, hstem, hdot, rfl⟩
    simp only [hfile, Option.bind_eq_bind, Option.bind_some, String.toList_ofList, Text.cutLast?_append stem hdot, if_neg hstem]
    rfl

end Path

end CodeOutline
