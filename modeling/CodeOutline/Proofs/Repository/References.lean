import CodeOutline.Proofs.Text.Split
import CodeOutline.Repository.Reference

/-! Addresses of repositories: which text refers to which repository, and which to none. -/

namespace CodeOutline.Repository

open Text

namespace Reference

variable {r : Reference} {url : String} {cs before after owner name suffix tail : List Char}

/-- The owner and the repository can stand between slashes. -/
structure IsNamed (r : Reference) : Prop where
  owner_ne : r.owner ≠ ""
  owner_slash : '/' ∉ r.owner.toList
  name_ne : r.name ≠ ""
  name_slash : '/' ∉ r.name.toList

/-- The text names the host right before the repository, and nowhere earlier. Behind the repository there may be the
suffix `.git`, and behind this a slash with anything. -/
def IsAddressed (r : Reference) (url : String) : Prop :=
  ∃ before suffix tail : String, url = before ++ "github.com/" ++ r.owner ++ "/" ++ r.name ++ suffix ++ tail ∧
    (∀ i < before.toList.length, ¬marker <+: (before ++ "github.com/" ++ r.owner ++ "/" ++ r.name).toList.drop i) ∧
    (suffix = "" ∨ suffix = ".git") ∧ (tail = "" ∨ ∃ more, tail = "/" ++ more)

/-- One of the first two segments is missing or empty, or the second is nothing but the suffix. -/
def LacksName (text : List Char) : Prop :=
  (text.splitOn '/')[0]?.getD [] = [] ∨ (text.splitOn '/')[1]?.getD [] = [] ∨ (text.splitOn '/')[1]? = some ".git".toList

/-- The host is missing, or a name is missing behind its first place. -/
def NamesNone (url : String) : Prop :=
  ¬marker <:+: url.toList ∨ ∃ before after, IsFirstCut marker url.toList before after ∧ LacksName after

/-- How a text is read as the address of a repository. -/
structure IsRead (url : String) : Prop where
  ofUrl?_eq : ∀ r : Reference, r.IsNamed → ¬".git".toList <:+ r.name.toList → r.IsAddressed url → ofUrl? url = some r
  isAddressed : ∀ r, ofUrl? url = some r → r.IsNamed ∧ r.IsAddressed url
  ofUrl?_eq_none_iff : ofUrl? url = none ↔ NamesNone url

lemma dropSuffix_append (cs suffix : List Char) : dropSuffix suffix (cs ++ suffix) = cs := by
  have hsuffix : suffix.isSuffixOf (cs ++ suffix) = true := List.isSuffixOf_iff_suffix.mpr (List.suffix_append cs suffix)
  rw [dropSuffix, if_pos hsuffix, List.length_append, Nat.add_sub_cancel, List.take_left]

lemma dropSuffix_of_not_suffix (h : ¬suffix <:+ cs) : dropSuffix suffix cs = cs :=
  if_neg fun hsuffix => h (List.isSuffixOf_iff_suffix.mp hsuffix)

lemma dropSuffix_cases (suffix cs : List Char) :
    cs = dropSuffix suffix cs ∨ cs = dropSuffix suffix cs ++ suffix := by
  by_cases h : suffix <:+ cs
  · obtain ⟨front, rfl⟩ := h
    exact .inr (by rw [dropSuffix_append])
  · exact .inl (dropSuffix_of_not_suffix h).symm

lemma dropSuffix_eq_nil_iff : dropSuffix suffix cs = [] ↔ cs = [] ∨ cs = suffix := by
  constructor
  · intro h
    have hcases := dropSuffix_cases suffix cs
    rwa [h, List.nil_append] at hcases
  · rintro (rfl | rfl)
    · obtain h | h := dropSuffix_cases suffix []
      · exact h.symm
      · exact (List.append_eq_nil_iff.mp h.symm).1
    · exact dropSuffix_append [] cs

lemma ofUrl?_eq_some_iff (h : IsFirstCut marker url.toList before after) : ofUrl? url = some r ↔
    ∃ owner name more, splitAt '/' after = owner :: name :: more ∧ owner ≠ [] ∧ dropSuffix gitSuffix name ≠ [] ∧
      r = ⟨String.ofList owner, String.ofList (dropSuffix gitSuffix name)⟩ := by
  simp only [ofUrl?, cutText?_eq_some_iff.mpr h, Option.bind_eq_bind, Option.bind_some]
  cases splitAt '/' after with
  | nil => simp
  | cons owner pieces =>
    cases pieces with
    | nil => simp
    | cons name more =>
      simp only
      split_ifs with hnone
      · refine ⟨fun h => h.elim, ?_⟩
        rintro ⟨owner', name', more', heq, howner, hname, -⟩
        obtain ⟨rfl, hmore⟩ := List.cons.inj heq
        obtain ⟨rfl, -⟩ := List.cons.inj hmore
        exact (hnone.elim howner hname).elim
      · obtain ⟨howner, hname⟩ := not_or.mp hnone
        constructor
        · intro h
          exact ⟨owner, name, more, rfl, howner, hname, (Option.some.inj h).symm⟩
        · rintro ⟨owner', name', more', heq, -, -, rfl⟩
          obtain ⟨rfl, hmore⟩ := List.cons.inj heq
          obtain ⟨rfl, -⟩ := List.cons.inj hmore
          rfl

lemma ofUrl?_eq_none (h : ¬marker <:+: url.toList) : ofUrl? url = none := by
  rw [ofUrl?, cutText?_eq_none_iff.mpr h]
  rfl

def behindHost (r : Reference) (suffix tail : List Char) : List Char :=
  r.owner.toList ++ '/' :: (r.name.toList ++ suffix ++ tail)

lemma toList_address (r : Reference) (before suffix tail : String) :
    (before ++ "github.com/" ++ r.owner ++ "/" ++ r.name ++ suffix ++ tail).toList =
      before.toList ++ marker ++ r.behindHost suffix.toList tail.toList := by
  have hslash : "/".toList = ['/'] := rfl
  have hmarker : "github.com/".toList = marker := rfl
  simp only [String.toList_append, hmarker, behindHost, hslash, List.append_assoc, List.cons_append, List.nil_append]

lemma prefix_drop_append_iff {marker more : List Char} {i : Nat} (h : i + marker.length ≤ cs.length) :
    marker <+: (cs ++ more).drop i ↔ marker <+: cs.drop i := by
  have hlength : marker.length ≤ (cs.drop i).length := by
    rw [List.length_drop]
    omega
  rw [List.drop_append_of_le_length (by omega)]
  exact ⟨fun hmarker => List.prefix_of_prefix_length_le hmarker (List.prefix_append _ _) hlength,
    fun hmarker => hmarker.trans (List.prefix_append _ _)⟩

lemma isFirstCut_iff {before after more : List Char} {marker : List Char} :
    IsFirstCut marker (before ++ marker ++ after ++ more) before (after ++ more) ↔
      ∀ i < before.length, ¬marker <+: (before ++ marker ++ after).drop i := by
  have hback : ∀ i < before.length, (marker <+: (before ++ marker ++ after ++ more).drop i ↔
      marker <+: (before ++ marker ++ after).drop i) := by
    intro i hi
    apply prefix_drop_append_iff
    simp only [List.length_append]
    omega
  constructor
  · rintro ⟨-, hfirst⟩ i hi
    exact mt (hback i hi).mpr (hfirst i hi)
  · intro hfirst
    exact ⟨List.append_assoc _ _ _, fun i hi => mt (hback i hi).mp (hfirst i hi)⟩

lemma isAddressed_iff : r.IsAddressed url ↔ ∃ before suffix tail, IsFirstCut marker url.toList before (r.behindHost suffix tail) ∧
    (suffix = [] ∨ suffix = gitSuffix) ∧ (tail = [] ∨ ∃ more, tail = '/' :: more) := by
  have hcut : ∀ before suffix tail : String,
      IsFirstCut marker (before.toList ++ marker ++ r.behindHost suffix.toList tail.toList) before.toList
          (r.behindHost suffix.toList tail.toList) ↔
        ∀ i < before.toList.length, ¬marker <+: (before ++ "github.com/" ++ r.owner ++ "/" ++ r.name).toList.drop i := by
    intro before suffix tail
    have hbehind : r.behindHost suffix.toList tail.toList = r.behindHost [] [] ++ (suffix.toList ++ tail.toList) := by
      simp [behindHost]
    have haddress := toList_address r before "" ""
    rw [String.append_empty, String.append_empty, String.toList_empty] at haddress
    rw [haddress, hbehind, ← List.append_assoc, isFirstCut_iff]
  constructor
  · rintro ⟨before, suffix, tail, rfl, hfirst, hsuffix, htail⟩
    refine ⟨before.toList, suffix.toList, tail.toList, ?_, ?_, ?_⟩
    · rw [toList_address]
      exact (hcut before suffix tail).mpr hfirst
    · obtain rfl | rfl := hsuffix
      · exact .inl rfl
      · exact .inr rfl
    · obtain rfl | ⟨more, rfl⟩ := htail
      · exact .inl rfl
      · exact .inr ⟨more.toList, String.toList_append ..⟩
  · rintro ⟨before, suffix, tail, hfirst, hsuffix, htail⟩
    have hurl : url = String.ofList before ++ "github.com/" ++ r.owner ++ "/" ++ r.name ++ String.ofList suffix ++
        String.ofList tail := by
      apply String.toList_inj.mp
      rw [toList_address, hfirst.eq, String.toList_ofList, String.toList_ofList, String.toList_ofList]
    refine ⟨_, _, _, hurl, ?_, ?_, ?_⟩
    · rw [← hcut _ (String.ofList suffix) (String.ofList tail), String.toList_ofList, String.toList_ofList, String.toList_ofList,
        ← hfirst.eq]
      exact hfirst
    · obtain rfl | rfl := hsuffix
      · exact .inl rfl
      · exact .inr rfl
    · obtain rfl | ⟨more, rfl⟩ := htail
      · exact .inl rfl
      · exact .inr ⟨String.ofList more, String.ofList_cons ..⟩

lemma splitAt_behindHost (h : r.IsNamed) (hsuffix : suffix = [] ∨ suffix = gitSuffix)
    (htail : tail = [] ∨ ∃ more, tail = '/' :: more) :
    ∃ more, splitAt '/' (r.behindHost suffix tail) = r.owner.toList :: (r.name.toList ++ suffix) :: more := by
  have hname : '/' ∉ r.name.toList ++ suffix := by
    have hgit : '/' ∉ gitSuffix := by decide
    rw [List.mem_append, not_or]
    obtain rfl | rfl := hsuffix
    · exact ⟨h.name_slash, List.not_mem_nil⟩
    · exact ⟨h.name_slash, hgit⟩
  rw [behindHost, splitAt_append_mark, splitAt_of_not_mem h.owner_slash]
  obtain rfl | ⟨more, rfl⟩ := htail
  · exact ⟨[], by rw [List.append_nil, splitAt_of_not_mem hname]; rfl⟩
  · exact ⟨splitAt '/' more, by rw [splitAt_append_mark, splitAt_of_not_mem hname]; rfl⟩

lemma exists_isFirstCut (h : marker <:+: url.toList) : ∃ before after, IsFirstCut marker url.toList before after := by
  cases hcut : cutText? marker url.toList with
  | none => exact absurd h (cutText?_eq_none_iff.mp hcut)
  | some cut => exact ⟨cut.1, cut.2, cutText?_eq_some_iff.mp hcut⟩

lemma ofUrl?_of_isAddressed (h : r.IsNamed) (hgit : ¬".git".toList <:+ r.name.toList) (haddress : r.IsAddressed url) :
    ofUrl? url = some r := by
  obtain ⟨before, suffix, tail, hcut, hsuffix, htail⟩ := isAddressed_iff.mp haddress
  obtain ⟨more, hsplit⟩ := splitAt_behindHost h hsuffix htail
  have hdrop : dropSuffix gitSuffix (r.name.toList ++ suffix) = r.name.toList := by
    obtain rfl | rfl := hsuffix
    · rw [List.append_nil]
      exact dropSuffix_of_not_suffix hgit
    · exact dropSuffix_append _ _
  refine (ofUrl?_eq_some_iff hcut).mpr ⟨_, _, more, hsplit, mt String.toList_eq_nil_iff.mp h.owner_ne, ?_, ?_⟩
  · rw [hdrop]
    exact mt String.toList_eq_nil_iff.mp h.name_ne
  · rw [hdrop, String.ofList_toList, String.ofList_toList]

lemma exists_of_splitAt {mark : Char} {first second : List Char} {more : List (List Char)}
    (h : splitAt mark cs = first :: second :: more) :
    ∃ tail, cs = first ++ mark :: (second ++ tail) ∧ (tail = [] ∨ ∃ rest, tail = mark :: rest) := by
  rw [← intercalate_splitAt mark cs, h, intercalate_cons first (List.cons_ne_nil second more)]
  by_cases hmore : more = []
  · exact ⟨[], by simp [hmore], .inl rfl⟩
  · exact ⟨_, by rw [intercalate_cons second hmore], .inr ⟨_, rfl⟩⟩

lemma isAddressed_of_ofUrl? (h : ofUrl? url = some r) : r.IsNamed ∧ r.IsAddressed url := by
  have hhost : marker <:+: url.toList := by
    by_contra hnone
    rw [ofUrl?_eq_none hnone] at h
    cases h
  obtain ⟨before, after, hcut⟩ := exists_isFirstCut hhost
  obtain ⟨owner, name, more, hsplit, howner, hname, rfl⟩ := (ofUrl?_eq_some_iff hcut).mp h
  have hpieces : ∀ piece ∈ owner :: name :: more, '/' ∉ piece := fun piece hpiece => not_mem_of_mem_splitAt (hsplit ▸ hpiece)
  obtain ⟨suffix, hsuffix, hkept⟩ : ∃ suffix, (suffix = [] ∨ suffix = gitSuffix) ∧ name = dropSuffix gitSuffix name ++ suffix := by
    obtain hname | hname := dropSuffix_cases gitSuffix name
    · exact ⟨[], .inl rfl, by rw [List.append_nil]; exact hname⟩
    · exact ⟨gitSuffix, .inr rfl, hname⟩
  have hslash : '/' ∉ dropSuffix gitSuffix name := fun hmem => by
    refine hpieces name (by simp) ?_
    rw [hkept]
    exact List.mem_append_left _ hmem
  refine ⟨⟨?_, ?_, ?_, ?_⟩, isAddressed_iff.mpr ?_⟩
  · rwa [Ne, ← String.toList_eq_nil_iff, String.toList_ofList]
  · rw [String.toList_ofList]
    exact hpieces owner (by simp)
  · rwa [Ne, ← String.toList_eq_nil_iff, String.toList_ofList]
  · rwa [String.toList_ofList]
  · obtain ⟨tail, hafter, htail⟩ := exists_of_splitAt hsplit
    have hbehind : after = behindHost ⟨String.ofList owner, String.ofList (dropSuffix gitSuffix name)⟩ suffix tail := by
      rw [behindHost, String.toList_ofList, String.toList_ofList, ← hkept, hafter]
    exact ⟨before, suffix, tail, hbehind ▸ hcut, hsuffix, htail⟩

lemma lacksName_iff : LacksName after ↔ ∀ owner name more, splitAt '/' after = owner :: name :: more →
    owner = [] ∨ dropSuffix gitSuffix name = [] := by
  rw [LacksName, ← splitAt_eq_splitOn]
  cases splitAt '/' after with
  | nil => simp
  | cons owner pieces =>
    cases pieces with
    | nil => simp
    | cons name more =>
      have hname : dropSuffix gitSuffix name = [] ↔ name = [] ∨ name = ".git".toList := dropSuffix_eq_nil_iff
      constructor
      · rintro h _ _ _ heq
        obtain ⟨rfl, hmore⟩ := List.cons.inj heq
        obtain ⟨rfl, -⟩ := List.cons.inj hmore
        rw [hname]
        exact h.imp_right (Or.imp_right Option.some.inj)
      · intro h
        have hnone := h owner name more rfl
        rw [hname] at hnone
        exact hnone.imp_right (Or.imp_right (congrArg some))

lemma ofUrl?_eq_none_iff_of_cut (h : IsFirstCut marker url.toList before after) : ofUrl? url = none ↔ LacksName after := by
  simp only [Option.eq_none_iff_forall_ne_some, Ne, ofUrl?_eq_some_iff h, lacksName_iff]
  constructor
  · intro hnone owner name more hsplit
    by_contra hnames
    obtain ⟨howner, hname⟩ := not_or.mp hnames
    exact hnone _ ⟨owner, name, more, hsplit, howner, hname, rfl⟩
  · rintro hlacks _ ⟨owner, name, more, hsplit, howner, hname, -⟩
    exact (hlacks owner name more hsplit).elim howner hname

lemma namesNone_iff (h : IsFirstCut marker url.toList before after) : NamesNone url ↔ LacksName after := by
  constructor
  · rintro (hnone | ⟨before', after', hcut, hlacks⟩)
    · exact (hnone ⟨before, after, h.eq.symm⟩).elim
    · have hsame := (cutText?_eq_some_iff.mpr hcut).symm.trans (cutText?_eq_some_iff.mpr h)
      obtain ⟨-, rfl⟩ := Prod.mk.inj (Option.some.inj hsame)
      exact hlacks
  · exact fun hlacks => .inr ⟨before, after, h, hlacks⟩

/-- Reading an address undoes writing it, and no other text is read. -/
theorem isRead_url (url : String) : IsRead url where
  ofUrl?_eq _ h hgit haddress := ofUrl?_of_isAddressed h hgit haddress
  isAddressed _ h := isAddressed_of_ofUrl? h
  ofUrl?_eq_none_iff := by
    by_cases hhost : marker <:+: url.toList
    · obtain ⟨before, after, hcut⟩ := exists_isFirstCut hhost
      rw [ofUrl?_eq_none_iff_of_cut hcut, namesNone_iff hcut]
    · exact iff_of_true (ofUrl?_eq_none hhost) (.inl hhost)

example : ofUrl? "see http://github.com/github.com/a.git/tree" = some ⟨"github.com", "a"⟩ := by decide +kernel

end Reference

end CodeOutline.Repository
