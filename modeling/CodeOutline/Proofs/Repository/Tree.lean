import CodeOutline.Proofs.Json.Records
import CodeOutline.Proofs.Repository.Requests
import CodeOutline.Proofs.Text.Split
import Mathlib.Data.List.Basic

/-! The files that a client lists from a repository's tree, and when they are the tree's blobs. -/

namespace CodeOutline.Repository

/-- The path ends in a supported extension after its last dot. -/
def NamesCode (path : String) : Prop :=
  ∃ stem extension, path.toList = stem ++ '.' :: extension ∧ '.' ∉ extension ∧
    String.ofList extension ∈ Language.supportedExtensions

namespace Client

variable {c : Client} {r : Reference} {branch : String} {network : Http.Network} {past : List Http.Exchange}
  {response : Http.Response} {entries : List TreeEntry} {files : List Listed} {j : Json}

lemma isCodePath_eq_true_iff {path : String} : isCodePath path = true ↔ NamesCode path := by
  unfold isCodePath NamesCode
  constructor
  · intro h
    split at h
    · rename_i stem extension hcut
      obtain ⟨hpath, hextension⟩ := Text.cutLast?_eq_some_iff.mp hcut
      exact ⟨stem, extension, hpath, hextension, List.contains_iff_mem.mp h⟩
    · cases h
  · rintro ⟨stem, extension, hpath, hextension, hmem⟩
    rw [Text.cutLast?_eq_some_iff.mpr ⟨hpath, hextension⟩]
    exact List.contains_iff_mem.mpr hmem

instance : DecidablePred NamesCode := fun _ => decidable_of_iff _ isCodePath_eq_true_iff

/-- A record of an entry's path, its kind and, where that is given, its size. -/
def IsEntry (j : Json) (e : TreeEntry) : Prop :=
  ∃ size, j.IsRecord ["path", "type", "size"] [some (.ofText e.path), some (.ofText e.kind), size] ∧
    Json.IsOptional (Json.IsNat sizeLimit) size e.size

/-- A record of the entries and, where it is given, a flag. -/
def IsTree (j : Json) (entries : List TreeEntry) : Prop :=
  ∃ items truncated, j.IsRecord ["tree", "truncated"] [some (.array items), truncated] ∧
    (∀ flag ∈ truncated, ∃ b, flag = .bool b) ∧ List.Forall₂ IsEntry items entries

/-- A successful response with the tree of these entries. -/
structure Describes (response : Http.Response) (entries : List TreeEntry) : Prop where
  success : response.isSuccess = true
  content : ∃ j, response.json? = some j ∧ IsTree j entries

/-- The code files among the entries of some kinds, in the order of the tree and with their sizes. -/
def filesOf (kinds : String → Bool) (entries : List TreeEntry) : List Listed :=
  (entries.filter fun e => kinds e.kind && NamesCode e.path).map fun e => ⟨e.path, e.size⟩

/-- Everything but folders is listed. That is the blobs just if nothing else has the path of a code file. -/
structure Lists (entries : List TreeEntry) (files : List Listed) : Prop where
  files_eq : files = filesOf (· ≠ "tree") entries
  blobs_iff : files = filesOf (· = "blob") entries ↔
    ∀ e ∈ entries, NamesCode e.path → e.kind = "blob" ∨ e.kind = "tree"

lemma entryOfJson?_eq_some_iff {e : TreeEntry} : entryOfJson? j = some e ↔ IsEntry j e := by
  have hsize : ∀ field size, Json.optional? (Json.nat? sizeLimit) field = some size ↔
      Json.IsOptional (Json.IsNat sizeLimit) field size := fun _ _ =>
    Json.optional?_eq_some_iff (fun _ _ => Json.nat?_eq_some_iff) rfl
  unfold entryOfJson?
  constructor
  · intro h
    obtain ⟨values, hvalues, h⟩ := Option.bind_eq_some_iff.mp h
    split at h
    · rename_i path kind size
      obtain ⟨pathText, hpath, h⟩ := Option.bind_eq_some_iff.mp h
      obtain ⟨kindText, hkind, h⟩ := Option.bind_eq_some_iff.mp h
      obtain ⟨sizeValue, hsizeValue, h⟩ := Option.bind_eq_some_iff.mp h
      obtain rfl := Option.some.inj h
      obtain rfl := Json.text?_eq_some_iff.mp hpath
      obtain rfl := Json.text?_eq_some_iff.mp hkind
      exact ⟨size, Json.fields?_eq_some_iff.mp hvalues, (hsize size sizeValue).mp hsizeValue⟩
    · cases h
  · rintro ⟨size, hrecord, hoptional⟩
    rw [Json.fields?_eq_some_iff.mpr hrecord]
    simp only [Option.bind_eq_bind, Option.bind_some, Json.text?_eq_some_iff.mpr rfl, (hsize size e.size).mpr hoptional]
    rfl

lemma bool?_eq_some_iff {b : Bool} : bool? j = some b ↔ j = .bool b := by
  cases j <;> simp [bool?]

lemma treeOfJson?_eq_some_iff : treeOfJson? j = some entries ↔ IsTree j entries := by
  have hlist : ∀ tree : Json, tree.list? entryOfJson? = some entries ↔
      ∃ items, tree = .array items ∧ List.Forall₂ IsEntry items entries := by
    simp only [Json.list?_eq_some_iff, entryOfJson?_eq_some_iff, implies_true]
  unfold treeOfJson?
  constructor
  · intro h
    obtain ⟨values, hvalues, h⟩ := Option.bind_eq_some_iff.mp h
    split at h
    · rename_i tree truncated
      have hrecord := Json.fields?_eq_some_iff.mp hvalues
      cases truncated with
      | none =>
        obtain ⟨items, rfl, hitems⟩ := (hlist tree).mp h
        exact ⟨items, none, hrecord, by simp, hitems⟩
      | some flag =>
        obtain ⟨b, hb, h⟩ := Option.bind_eq_some_iff.mp h
        obtain ⟨items, rfl, hitems⟩ := (hlist tree).mp h
        refine ⟨items, some flag, hrecord, ?_, hitems⟩
        intro given hgiven
        obtain rfl := Option.mem_some_iff.mp hgiven
        exact ⟨b, bool?_eq_some_iff.mp hb⟩
    · cases h
  · rintro ⟨items, truncated, hrecord, hflag, hitems⟩
    rw [Json.fields?_eq_some_iff.mpr hrecord]
    cases truncated with
    | none => exact (hlist _).mpr ⟨items, rfl, hitems⟩
    | some flag =>
      obtain ⟨b, rfl⟩ := hflag flag rfl
      exact (hlist _).mpr ⟨items, rfl, hitems⟩

lemma readReply_eq_ok_iff {response? : Option Http.Response} : readReply response? = .ok j ↔
    ∃ response, response? = some response ∧ response.isSuccess = true ∧ response.json? = some j := by
  unfold readReply
  constructor
  · intro h
    split at h
    · cases h
    · rename_i response
      split_ifs at h with hsuccess
      split at h
      · rename_i json hjson
        obtain rfl := Except.ok.inj h
        exact ⟨response, rfl, by simpa using hsuccess, hjson⟩
      · cases h
  · rintro ⟨response, rfl, hsuccess, hjson⟩
    simp [hsuccess, hjson]

lemma readTree_eq_ok_iff {reply : Except Failure Json} : readTree reply = .ok files ↔
    ∃ j entries, reply = .ok j ∧ IsTree j entries ∧ files = listed entries := by
  constructor
  · intro h
    obtain ⟨j, rfl, hj⟩ := exists_of_bind_eq_ok h
    split at hj
    · rename_i entries htree
      exact ⟨j, entries, rfl, treeOfJson?_eq_some_iff.mp htree, (Except.ok.inj hj).symm⟩
    · cases hj
  · rintro ⟨j, entries, rfl, htree, rfl⟩
    simp [readTree, treeOfJson?_eq_some_iff.mpr htree, bind, Except.bind, pure, Except.pure]

lemma listed_eq_filesOf (entries : List TreeEntry) : listed entries = filesOf (· ≠ "tree") entries := by
  have hcode : ∀ path, isCodePath path = decide (NamesCode path) := fun path => by
    rw [Bool.eq_iff_iff, isCodePath_eq_true_iff, decide_eq_true_iff]
  simp only [listed, filesOf, hcode]

lemma filesOf_eq_blobs_iff (entries : List TreeEntry) : filesOf (· ≠ "tree") entries = filesOf (· = "blob") entries ↔
    ∀ e ∈ entries, NamesCode e.path → e.kind = "blob" ∨ e.kind = "tree" := by
  constructor
  · intro h e he hcode
    -- the blobs are among what is listed, so that lists of one length are the same
    have hsub : List.Sublist (entries.filter fun e => e.kind = "blob" && NamesCode e.path)
        (entries.filter fun e => e.kind ≠ "tree" && NamesCode e.path) := by
      refine List.monotone_filter_right entries fun e hblob => ?_
      simp only [Bool.and_eq_true, decide_eq_true_iff] at hblob ⊢
      exact ⟨by simp [hblob.1], hblob.2⟩
    have hlength := congrArg List.length h
    rw [filesOf, filesOf, List.length_map, List.length_map] at hlength
    have hsame := hsub.eq_of_length hlength.symm
    by_contra hkind
    rw [not_or] at hkind
    have hmem : e ∈ entries.filter fun e => e.kind ≠ "tree" && NamesCode e.path :=
      List.mem_filter.mpr ⟨he, by simp [hkind.2, hcode]⟩
    rw [← hsame, List.mem_filter] at hmem
    simp [hkind.1] at hmem
  · intro h
    have hfilter : (entries.filter fun e => e.kind ≠ "tree" && NamesCode e.path) =
        entries.filter fun e => e.kind = "blob" && NamesCode e.path := by
      refine List.filter_congr fun e he => ?_
      by_cases hcode : NamesCode e.path
      · obtain hkind | hkind := h e he hcode <;> simp [hkind]
      · simp [hcode]
    rw [filesOf, filesOf, hfilter]

lemma lists_iff : Lists entries files ↔ files = listed entries := by
  rw [listed_eq_filesOf]
  constructor
  · exact fun h => h.files_eq
  · rintro rfl
    exact ⟨rfl, filesOf_eq_blobs_iff entries⟩

/-- The tree is listed just when a request for it can be written and is answered with one. -/
theorem fetchTree_eq_ok_iff : (c.fetchTree r branch network past).1 = .ok files ↔
    ∃ request response entries, c.treeRequest? r branch = some request ∧ network past request = .answered response ∧
      Describes response entries ∧ Lists entries files := by
  constructor
  · intro h
    cases hrequest : c.treeRequest? r branch with
    | none =>
      rw [fetchTree_eq_of_none hrequest] at h
      cases h
    | some request =>
      rw [fetchTree_eq_of_some hrequest] at h
      obtain ⟨j, entries, hreply, htree, hfiles⟩ := readTree_eq_ok_iff.mp h
      obtain ⟨response, hresponse, hsuccess, hjson⟩ := readReply_eq_ok_iff.mp hreply
      exact ⟨request, response, entries, rfl, Http.Outcome.response?_eq_some_iff.mp hresponse,
        ⟨hsuccess, j, hjson, htree⟩, lists_iff.mpr hfiles⟩
  · rintro ⟨request, response, entries, hrequest, hresponse, hdescribes, hlists⟩
    obtain ⟨j, hjson, htree⟩ := hdescribes.content
    rw [fetchTree_eq_of_some hrequest, hresponse]
    exact readTree_eq_ok_iff.mpr ⟨j, entries, readReply_eq_ok_iff.mpr ⟨response, rfl, hdescribes.success, hjson⟩, htree,
      lists_iff.mp hlists⟩

/-- A submodule with the name of a script is listed with the blobs. -/
theorem not_blobs_of_submodule :
    let response : Http.Response := ⟨200, Text.Utf8.encode ("\x7b\"tree\":[" ++
      "\x7b\"path\":\"a.js\",\"type\":\"blob\",\"size\":3\x7d," ++
      "\x7b\"path\":\"widget.js\",\"type\":\"commit\"\x7d]\x7d")⟩
    let entries : List TreeEntry := [⟨"a.js", "blob", some 3⟩, ⟨"widget.js", "commit", none⟩]
    let network : Http.Network := fun _ _ => .answered response
    Describes response entries ∧ filesOf (· = "blob") entries = [⟨"a.js", some 3⟩] ∧
      ((⟨"http://h", none⟩ : Client).fetchTree ⟨"o", "r"⟩ "main" network []).1 =
        .ok [⟨"a.js", some 3⟩, ⟨"widget.js", none⟩] := by
  intro response entries network
  have hread : response.json?.bind treeOfJson? = some entries := by decide +kernel
  obtain ⟨j, hjson, htree⟩ := Option.bind_eq_some_iff.mp hread
  exact ⟨⟨by decide, j, hjson, treeOfJson?_eq_some_iff.mp htree⟩, by decide +kernel, by decide +kernel⟩

end Client

end CodeOutline.Repository
