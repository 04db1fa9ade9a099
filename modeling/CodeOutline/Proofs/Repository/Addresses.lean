import CodeOutline.Proofs.Http.Service
import CodeOutline.Proofs.Repository.Requests

/-! The request for a file of a repository: which file it asks for, and when that is the one that was listed. -/

namespace CodeOutline.Repository

open Text Text.Utf8 Http Http.Url

variable {c : Client} {r : Reference} {path branch : String} {home : Url} {request : Http.Request}

/-- Where the interface keeps a file. -/
def contentsPath (r : Reference) (path : String) : String := "repos/" ++ r.owner ++ "/" ++ r.name ++ "/contents/" ++ path

/-- What the target stands for: a path of the service at `home`, and the branch as the only parameter. -/
def AsksFor (home : Url) (r : Reference) (path branch target : String) : Prop :=
  ∃ before query, cutFirst? '?' target.toList = some (before, query) ∧
    unescape before = unescape (pathText home.path.dropLast) ++ encode ("/" ++ contentsPath r path) ∧
    parameters query = [(encode "ref", encode branch)]

/-- Names as a repository can have them. -/
structure IsListed (r : Reference) (path branch : String) : Prop where
  controls : ∀ text ∈ [r.owner, r.name, path, branch], ∀ c ∈ text.toList, 0x20 ≤ c.toNat
  dots : ∀ text ∈ [r.owner, r.name, path], ∀ segment ∈ splitAt '/' text.toList, segment ≠ ['.'] ∧ segment ≠ ['.', '.']

instance (r : Reference) (path branch : String) : Decidable (IsListed r path branch) :=
  decidable_of_iff (([r.owner, r.name, path, branch].all fun text => text.toList.all fun c => 0x20 ≤ c.toNat) ∧
      [r.owner, r.name, path].all fun text =>
        (splitAt '/' text.toList).all fun segment => segment ≠ ['.'] ∧ segment ≠ ['.', '.'])
    (by
      simp only [List.all_eq_true, decide_eq_true_iff]
      exact ⟨fun ⟨hcontrols, hdots⟩ => ⟨hcontrols, hdots⟩, fun h => ⟨h.controls, h.dots⟩⟩)

/-- Names that stand in an address as they are. -/
structure IsPlain (r : Reference) (path branch : String) : Prop where
  path : IsPlainPath (contentsPath r path).toList
  branch : IsPlainValue branch.toList

namespace Client

/-- The client can send requests, to paths below that of `home`. -/
structure Reaches (c : Client) (home : Url) : Prop where
  home : parse? (c.apiUrl ++ "/") = some home
  fragment : '#' ∉ c.apiUrl.toList
  query : '?' ∉ c.apiUrl.toList
  headers : c.headers.all (fun h => Request.isHeaderValue h.2) = true

/-- Whatever was asked before, fetching the file sends this one request. -/
def Sends (c : Client) (r : Reference) (path branch : String) (request : Http.Request) : Prop :=
  ∀ network past, (c.fetchFile r path branch network past).2 = past ++ [network.exchange past request]

end Client

lemma toList_contentsPath (r : Reference) (path : String) : (contentsPath r path).toList =
    "repos".toList ++ '/' :: (r.owner.toList ++ '/' :: (r.name.toList ++ '/' :: ("contents".toList ++ '/' :: path.toList))) := by
  simp [contentsPath]

lemma IsListed.dots_contentsPath (h : IsListed r path branch) :
    ∀ segment ∈ splitAt '/' (contentsPath r path).toList, segment ≠ ['.'] ∧ segment ≠ ['.', '.'] := by
  obtain ⟨howner, hname, hpath⟩ : _ ∧ _ ∧ _ := by simpa using h.dots
  have hrepos : ∀ segment ∈ splitAt '/' "repos".toList, segment ≠ ['.'] ∧ segment ≠ ['.', '.'] := by simp [splitAt]
  have hcontents : ∀ segment ∈ splitAt '/' "contents".toList, segment ≠ ['.'] ∧ segment ≠ ['.', '.'] := by simp [splitAt]
  intro segment hsegment
  simp only [toList_contentsPath, splitAt_append_mark, List.mem_append] at hsegment
  obtain hmem | hmem | hmem | hmem | hmem := hsegment
  · exact hrepos segment hmem
  · exact howner segment hmem
  · exact hname segment hmem
  · exact hcontents segment hmem
  · exact hpath segment hmem

lemma IsListed.controls_contentsPath (h : IsListed r path branch) : ∀ c ∈ (contentsPath r path).toList, 0x20 ≤ c.toNat := by
  obtain ⟨howner, hname, hpath, -⟩ : _ ∧ _ ∧ _ ∧ _ := by simpa using h.controls
  have hrepos : ∀ c ∈ "repos".toList, 0x20 ≤ c.toNat := by simp
  have hcontents : ∀ c ∈ "contents".toList, 0x20 ≤ c.toNat := by simp
  intro c hc
  simp only [toList_contentsPath, List.mem_append, List.mem_cons] at hc
  obtain hc | rfl | hc | rfl | hc | rfl | hc | rfl | hc := hc
  · exact hrepos c hc
  · decide
  · exact howner c hc
  · decide
  · exact hname c hc
  · decide
  · exact hcontents c hc
  · decide
  · exact hpath c hc

lemma contentsUrl_eq (c : Client) (r : Reference) (path branch : String) :
    c.contentsUrl r path branch = c.apiUrl ++ "/" ++ (contentsPath r path ++ "?ref=" ++ branch) := by
  have hslash : "/repos/" = "/" ++ "repos/" := rfl
  simp only [Client.contentsUrl, Client.base, contentsPath, hslash, String.append_assoc]

lemma ending_contents (h : IsListed r path branch) : ending (contentsPath r path ++ "?ref=" ++ branch).toList =
    (contentsPath r path).toList ++ '?' :: ("ref".toList ++ '=' :: ending branch.toList) := by
  have hkeep : (contentsPath r path).toList.filter (!isLineChar ·) = (contentsPath r path).toList :=
    List.filter_eq_self.mpr fun c hc => by simp [isLineChar_of_le (h.controls_contentsPath c hc)]
  have htext : (contentsPath r path ++ "?ref=" ++ branch).toList =
      (contentsPath r path).toList ++ '?' :: ("ref".toList ++ '=' :: branch.toList) := by simp
  rw [htext, ending_append (by decide), ending_append (by decide), hkeep]
  rfl

/-- What stands behind the path of the service in the address of a file. -/
def behindService (r : Reference) (path branch : String) : List Char :=
  (contentsPath r path).toList ++ '?' :: ("ref".toList ++ '=' :: ending branch.toList)

/-- The address of a file whose way begins behind the segments of `passed`. -/
def fileUrl (home : Url) (passed : List (List Char)) (r : Reference) (path branch : String) : Url where
  scheme := home.scheme
  authority := home.authority
  path := resolve passed (segments (pathOf (behindService r path branch)))
  query := queryOf (behindService r path branch)

lemma path_fileUrl (home : Url) (passed : List (List Char)) (r : Reference) (path branch : String) :
    (fileUrl home passed r path branch).path = resolve passed (segments (pathOf (behindService r path branch))) := by
  rw [fileUrl]

lemma exists_fileRequest?_eq (hc : c.Reaches home) : ∃ passed, home.path.dropLast = passed.reverse ∧
    (∀ segment ∈ passed, '?' ∉ segment) ∧ ∀ path branch, IsListed r path branch →
      c.fileRequest? r path branch = some ⟨.get, fileUrl home passed r path branch, c.headers, none⟩ := by
  obtain ⟨passed, hhome, hmark, hparse⟩ := parse?_behind hc.home hc.fragment hc.query
  refine ⟨passed, by rw [hhome, List.dropLast_concat], hmark, fun path branch hl => ?_⟩
  have hurl := hparse (contentsPath r path ++ "?ref=" ++ branch)
  rw [← contentsUrl_eq, ending_contents hl] at hurl
  rw [Client.fileRequest?, Http.Request.make?_eq_map hc.headers, hurl]
  rfl

/-- The query of an address in which nothing before it is read as one. -/
def branchQuery (branch : String) : List Char :=
  escape isEscapedInQuery ("ref".toList ++ '=' :: (ending branch.toList).takeWhile (· != '#'))

lemma query_fileUrl (h : IsPlainPath (contentsPath r path).toList) (home : Url) (passed : List (List Char)) (branch : String) :
    (fileUrl home passed r path branch).query = some (branchQuery branch) := by
  have hmark : ∀ rest, queryOf ('?' :: rest) = some (escape isEscapedInQuery (rest.takeWhile (· != '#'))) := fun _ => rfl
  have hname : '#' ∉ "ref".toList := by decide
  rw [fileUrl, behindService, queryOf_append h.fragment h.query, hmark, takeWhile_fragment_append hname,
    List.takeWhile_cons_of_pos (by decide), branchQuery]

lemma parameters_branchQuery_eq_iff (h : ∀ c ∈ branch.toList, 0x20 ≤ c.toNat) :
    parameters (branchQuery branch) = [(encode "ref", encode branch)] ↔ IsPlainValue branch.toList := by
  have hname : unescape "ref".toList = encode "ref" := unescape_eq_of_not_holdsEscape (not_holdsEscape_of_not_mem (by decide))
  rw [← hname, encode_eq_encodeChars, branchQuery, parameters_escape_eq_iff (by decide) (by decide) (by decide)]
  exact unescape_takeWhile_ending_eq_iff h

lemma unescape_path_fileUrl_eq_iff {passed : List (List Char)} (hl : IsListed r path branch) :
    unescape (pathText (fileUrl home passed r path branch).path) =
      unescape (pathText passed.reverse) ++ encode ("/" ++ contentsPath r path) ↔ IsPlainPath (contentsPath r path).toList := by
  have hcontents : encode ("/" ++ contentsPath r path) = encodeChars ('/' :: (contentsPath r path).toList) := by
    rw [encode_eq_encodeChars, String.toList_append]
    rfl
  rw [hcontents, path_fileUrl, behindService]
  exact unescape_resolve_eq_iff hl.dots_contentsPath passed ("ref".toList ++ '=' :: ending branch.toList)

/-- The request for a file asks for it exactly if its names are plain. -/
lemma asksFor_fileUrl_iff {passed : List (List Char)} (hhome : home.path.dropLast = passed.reverse)
    (hmark : ∀ segment ∈ passed, '?' ∉ segment) (hl : IsListed r path branch) :
    AsksFor home r path branch (fileUrl home passed r path branch).target ↔ IsPlain r path branch := by
  have hquery : '?' ∉ pathText (fileUrl home passed r path branch).path := by
    rw [path_fileUrl]
    exact query_not_mem_pathText (query_not_mem_resolve hmark _)
  have hbranch := parameters_branchQuery_eq_iff (hl.controls branch (by simp))
  rw [AsksFor, cutFirst?_target hquery, hhome]
  constructor
  · rintro ⟨before, query, hcut, hbefore, hparameters⟩
    obtain ⟨found, hfound, heq⟩ := Option.map_eq_some_iff.mp hcut
    obtain ⟨rfl, rfl⟩ := Prod.mk.inj heq
    have hplain := (unescape_path_fileUrl_eq_iff hl).mp hbefore
    obtain rfl := Option.some.inj (hfound.symm.trans (query_fileUrl hplain home passed branch))
    exact ⟨hplain, hbranch.mp hparameters⟩
  · rintro ⟨hplain, hvalue⟩
    refine ⟨pathText (fileUrl home passed r path branch).path, branchQuery branch, ?_, ?_, hbranch.mpr hvalue⟩
    · rw [query_fileUrl hplain, Option.map_some]
    · exact (unescape_path_fileUrl_eq_iff hl).mpr hplain

lemma AsksFor.unique {path' branch' target : String} (h : AsksFor home r path branch target)
    (h' : AsksFor home r path' branch' target) : path = path' ∧ branch = branch' := by
  obtain ⟨before, query, hcut, hbefore, hparameters⟩ := h
  obtain ⟨before', query', hcut', hbefore', hparameters'⟩ := h'
  obtain ⟨rfl, rfl⟩ := Prod.mk.inj (Option.some.inj (hcut.symm.trans hcut'))
  have hpath := encode_injective (List.append_cancel_left (hbefore.symm.trans hbefore'))
  rw [String.append_right_inj, contentsPath, contentsPath, String.append_right_inj] at hpath
  have hbranch := List.cons.inj (hparameters.symm.trans hparameters')
  exact ⟨hpath, encode_injective (Prod.mk.inj hbranch.1).2⟩

namespace Client

lemma sends_iff (h : c.fileRequest? r path branch = some request) {other : Http.Request} :
    c.Sends r path branch other ↔ other = request := by
  constructor
  · intro hsends
    have hsent := hsends (fun _ _ => .unreachable) []
    rw [fetchFile_eq_of_some h] at hsent
    have hexchange := (List.cons.inj hsent).1
    exact (Exchange.mk.inj hexchange).1.symm
  · rintro rfl network past
    rw [fetchFile_eq_of_some h]

/-- Each file is asked for by one request. It is the file that was listed, on the branch that was meant, exactly if its
names are plain, and then no other plain names have the same request. -/
theorem asksFor_iff_isPlain (hc : c.Reaches home) (hl : IsListed r path branch) : ∃ request, c.Sends r path branch request ∧
    (AsksFor home r path branch request.target ↔ IsPlain r path branch) ∧
    (IsPlain r path branch → ∀ path' branch' request', IsListed r path' branch' → IsPlain r path' branch' →
      c.Sends r path' branch' request' → request'.target = request.target → path' = path ∧ branch' = branch) := by
  obtain ⟨passed, hhome, hmark, hrequest⟩ := exists_fileRequest?_eq (r := r) hc
  refine ⟨_, (sends_iff (hrequest path branch hl)).mpr rfl, asksFor_fileUrl_iff hhome hmark hl, ?_⟩
  intro hplain path' branch' request' hl' hplain' hsends' htarget
  obtain rfl := (sends_iff (hrequest path' branch' hl')).mp hsends'
  have hsame : (fileUrl home passed r path' branch').target = (fileUrl home passed r path branch).target := htarget
  have hasks' := (asksFor_fileUrl_iff hhome hmark hl').mpr hplain'
  rw [hsame] at hasks'
  exact hasks'.unique ((asksFor_fileUrl_iff hhome hmark hl).mpr hplain)

theorem asksFor_iff_isPlain_of_spaced_name :
    let c : Client := ⟨"http://h/api", none⟩
    let r : Reference := ⟨"o", "r"⟩
    let home : Url := ⟨"http", ['h'], ["api".toList, []], none⟩
    c.Reaches home ∧ IsListed r "src/a b.js" "main" ∧ ∃ request, c.Sends r "src/a b.js" "main" request ∧
      AsksFor home r "src/a b.js" "main" request.target := by
  intro c r home
  have hc : c.Reaches home := ⟨by decide +kernel, by decide +kernel, by decide +kernel, by decide +kernel⟩
  have hl : IsListed r "src/a b.js" "main" := by decide +kernel
  have hplain : IsPlain r "src/a b.js" "main" :=
    ⟨⟨by decide +kernel, by decide +kernel, by decide +kernel, not_holdsEscape_of_not_mem (by decide +kernel)⟩,
      ⟨by decide +kernel, by decide +kernel, not_holdsEscape_of_not_mem (by decide +kernel), by decide +kernel⟩⟩
  obtain ⟨request, hsends, hasks, -⟩ := asksFor_iff_isPlain hc hl
  exact ⟨hc, hl, request, hsends, hasks.mpr hplain⟩

/-- Two files on two branches have the same request, which asks for neither of them. -/
theorem not_asksFor_of_number_sign :
    let c : Client := ⟨"http://h", none⟩
    let r : Reference := ⟨"o", "r"⟩
    let home : Url := ⟨"http", ['h'], [[]], none⟩
    c.Reaches home ∧ IsListed r "a#b.js" "main" ∧ IsListed r "a#c.js" "dev" ∧ ∃ request,
      c.Sends r "a#b.js" "main" request ∧ c.Sends r "a#c.js" "dev" request ∧ request.target = "/repos/o/r/contents/a" ∧
      ¬AsksFor home r "a#b.js" "main" request.target ∧ ¬AsksFor home r "a#c.js" "dev" request.target := by
  intro c r home
  have hc : c.Reaches home := ⟨by decide +kernel, by decide +kernel, by decide +kernel, by decide +kernel⟩
  let url : Url := ⟨"http", ['h'], ["repos".toList, ['o'], ['r'], "contents".toList, ['a']], none⟩
  have hfirst : parse? (c.contentsUrl r "a#b.js" "main") = some url := by decide +kernel
  have hsecond : parse? (c.contentsUrl r "a#c.js" "dev") = some url := by decide +kernel
  have hrequest : ∀ path branch, parse? (c.contentsUrl r path branch) = some url →
      c.Sends r path branch ⟨.get, url, c.headers, none⟩ := by
    intro path branch hurl
    refine (sends_iff ?_).mpr rfl
    rw [fileRequest?, Http.Request.make?_eq_map hc.headers, hurl]
    rfl
  have htarget : url.target = "/repos/o/r/contents/a" := by decide +kernel
  have hnone : ∀ path branch, ¬AsksFor home r path branch url.target := by
    rintro path branch ⟨before, query, hcut, -⟩
    rw [htarget, cutFirst?_of_not_mem (by decide +kernel)] at hcut
    cases hcut
  exact ⟨hc, by decide +kernel, by decide +kernel, _, hrequest _ _ hfirst, hrequest _ _ hsecond, htarget, hnone _ _, hnone _ _⟩

end Client

end CodeOutline.Repository
