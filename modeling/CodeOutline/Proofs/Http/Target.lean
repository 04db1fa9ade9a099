import CodeOutline.Proofs.Http.Escapes
import CodeOutline.Proofs.Http.Url
import Mathlib.Data.List.DropRight

/-! What a request asks its server for: what its path and its query stand for, and when that is what was meant. -/

namespace CodeOutline.Http.Url

open Text Text.Utf8

variable {cs name value segment : List Char} {before later segs passed path : List (List Char)}

def IsDots (segment : List Char) : Prop := undot segment = ['.'] ∨ undot segment = ['.', '.']

/-- Where one segment leads that is not the last. -/
def follow (passed : List (List Char)) (segment : List Char) : List (List Char) :=
  if undot segment = ['.', '.'] then passed.drop 1
  else if undot segment = ['.'] then passed
  else escape isEscapedInPath segment :: passed

def pathText (path : List (List Char)) : List Char := path.flatMap ('/' :: ·)

lemma resolve_cons_of_isDots (h : IsDots segment) (passed segs : List (List Char)) :
    ∃ back, back <:+ passed ∧ resolve passed (segment :: segs) = resolve (if segs = [] then [] :: back else back) segs := by
  refine ⟨if undot segment = ['.', '.'] then passed.drop 1 else passed, ?_, ?_⟩
  · split
    · exact List.drop_suffix 1 passed
    · exact List.suffix_rfl
  · rw [resolve, if_pos (by simpa using h.symm)]

lemma resolve_cons_of_not_isDots (h : ¬IsDots segment) (passed segs : List (List Char)) :
    resolve passed (segment :: segs) = resolve (escape isEscapedInPath segment :: passed) segs := by
  obtain ⟨hdot, hback⟩ := not_or.mp h
  simp [resolve, hdot, hback]

lemma resolve_append (h : later ≠ []) (before passed : List (List Char)) :
    resolve passed (before ++ later) = resolve (before.foldl follow passed) later := by
  induction before generalizing passed with
  | nil => rfl
  | cons segment before ih =>
    have hne : before ++ later ≠ [] := by simp [h]
    rw [List.foldl_cons, ← ih, List.cons_append, follow, resolve]
    by_cases hback : undot segment = ['.', '.']
    · simp [hback, hne]
    · by_cases hdot : undot segment = ['.'] <;> simp [hback, hdot, hne]

lemma resolve_of_not_isDots (h : ∀ segment ∈ segs, ¬IsDots segment) (passed : List (List Char)) :
    resolve passed segs = passed.reverse ++ segs.map (escape isEscapedInPath) := by
  induction segs generalizing passed with
  | nil => simp [resolve]
  | cons segment segs ih =>
    rw [List.forall_mem_cons] at h
    rw [resolve_cons_of_not_isDots h.1, ih h.2]
    simp

lemma query_not_mem_escape (cs : List Char) : '?' ∉ escape isEscapedInPath cs := by
  rw [mem_escape_iff (by decide)]
  exact fun hmem => absurd hmem.2 (by decide)

lemma query_not_mem_follow (hpassed : ∀ segment ∈ passed, '?' ∉ segment) (next : List Char) :
    ∀ segment ∈ follow passed next, '?' ∉ segment := by
  rw [follow]
  split
  · exact fun segment hsegment => hpassed segment (List.mem_of_mem_drop hsegment)
  · split
    · exact hpassed
    · rw [List.forall_mem_cons]
      exact ⟨query_not_mem_escape next, hpassed⟩

lemma query_not_mem_foldl_follow (hpassed : ∀ segment ∈ passed, '?' ∉ segment) (before : List (List Char)) :
    ∀ segment ∈ before.foldl follow passed, '?' ∉ segment := by
  induction before generalizing passed with
  | nil => exact hpassed
  | cons next before ih => exact ih (query_not_mem_follow hpassed next)

lemma query_not_mem_resolve (hpassed : ∀ segment ∈ passed, '?' ∉ segment) (segs : List (List Char)) :
    ∀ segment ∈ resolve passed segs, '?' ∉ segment := by
  induction segs generalizing passed with
  | nil => simpa [resolve] using hpassed
  | cons next segs ih =>
    by_cases hdots : IsDots next
    · obtain ⟨back, hback, hresolve⟩ := resolve_cons_of_isDots hdots passed segs
      have hbefore : ∀ segment ∈ back, '?' ∉ segment := fun segment hsegment => hpassed segment (hback.subset hsegment)
      rw [hresolve]
      apply ih
      split
      · rw [List.forall_mem_cons]
        exact ⟨List.not_mem_nil, hbefore⟩
      · exact hbefore
    · rw [resolve_cons_of_not_isDots hdots]
      apply ih
      rw [List.forall_mem_cons]
      exact ⟨query_not_mem_escape next, hpassed⟩

lemma query_not_mem_pathText (h : ∀ segment ∈ path, '?' ∉ segment) : '?' ∉ pathText path := by
  intro hmem
  obtain ⟨segment, hsegment, hmem⟩ := List.mem_flatMap.mp hmem
  obtain heq | hmem := List.mem_cons.mp hmem
  · exact absurd heq (by decide)
  · exact h segment hsegment hmem

lemma cutFirst?_target {u : Url} (h : '?' ∉ pathText u.path) :
    cutFirst? '?' u.target.toList = u.query.map fun query => (pathText u.path, query) := by
  rw [target, String.toList_ofList]
  change cutFirst? '?' (pathText u.path ++ _) = _
  cases u.query with
  | none =>
    rw [Option.map_none, Option.getD_none, List.append_nil, cutFirst?_of_not_mem h]
    rfl
  | some query => exact cutFirst?_append query h

lemma unescape_slash (cs : List Char) : unescape ('/' :: cs) = encodeChars ['/'] ++ unescape cs :=
  unescape_of_not_beginsEscape (not_beginsEscape_of_ne (by decide))

lemma unescape_append_pathText (cs : List Char) (path : List (List Char)) :
    unescape (cs ++ pathText path) = unescape cs ++ unescape (pathText path) := by
  cases path with
  | nil => simp [pathText]
  | cons segment path =>
    change unescape (cs ++ '/' :: (segment ++ pathText path)) = _ ++ unescape ('/' :: (segment ++ pathText path))
    rw [unescape_append_slash, unescape_slash]

lemma unescape_pathText_append (path path' : List (List Char)) :
    unescape (pathText (path ++ path')) = unescape (pathText path) ++ unescape (pathText path') := by
  rw [pathText, List.flatMap_append, ← pathText, ← pathText, unescape_append_pathText]

lemma unescape_pathText_cons (segment : List Char) (path : List (List Char)) :
    unescape (pathText (segment :: path)) = encodeChars ['/'] ++ (unescape segment ++ unescape (pathText path)) := by
  rw [← unescape_append_pathText, ← unescape_slash]
  rfl

lemma unescape_pathText_map_escape (path : List (List Char)) :
    unescape (pathText (path.map (escape isEscapedInPath))) = unescape (pathText path) := by
  induction path with
  | nil => rfl
  | cons segment path ih => rw [List.map_cons, unescape_pathText_cons, unescape_pathText_cons, unescape_escape_path, ih]

lemma pathText_splitAt (cs : List Char) : pathText (splitAt '/' cs) = '/' :: cs := by
  induction cs with
  | nil => rfl
  | cons c rest ih =>
    by_cases hc : c = '/'
    · rw [splitAt, if_pos hc, hc, pathText, List.flatMap_cons, ← pathText, ih]
      rfl
    · obtain ⟨piece, pieces, hsplit⟩ := List.exists_cons_of_ne_nil (splitAt_ne_nil '/' rest)
      rw [hsplit] at ih
      simp only [splitAt, if_neg hc, hsplit]
      have hrest : piece ++ pathText pieces = rest := (List.cons.inj ih).2
      rw [← hrest]
      rfl

lemma length_encodeChars_slash : (encodeChars ['/']).length = 1 := by
  rw [encodeChars_eq]
  rfl

lemma length_encodeChars_pathText_cons (segment : List Char) (path : List (List Char)) :
    (encodeChars (pathText (segment :: path))).length =
      1 + (encodeChars segment).length + (encodeChars (pathText path)).length := by
  have htext : pathText (segment :: path) = ['/'] ++ segment ++ pathText path := rfl
  rw [htext, encodeChars_append, encodeChars_append, List.length_append, List.length_append, length_encodeChars_slash]

lemma length_unescape_pathText_reverse_cons (segment : List Char) (passed : List (List Char)) :
    (unescape (pathText (segment :: passed).reverse)).length =
      (unescape (pathText passed.reverse)).length + (1 + (unescape segment).length) := by
  have hnone : unescape (pathText []) = [] := unescape_nil
  rw [List.reverse_cons, unescape_pathText_append, unescape_pathText_cons, hnone, List.append_nil, List.length_append,
    List.length_append, length_encodeChars_slash]

lemma length_unescape_pathText_of_suffix (h : before <:+ later) :
    (unescape (pathText before.reverse)).length ≤ (unescape (pathText later.reverse)).length := by
  obtain ⟨front, rfl⟩ := h
  rw [List.reverse_append, unescape_pathText_append, List.length_append]
  omega

/-- A path that is followed never stands for more than its text, and for less where it has dots. -/
lemma length_unescape_resolve (segs passed : List (List Char)) :
    (unescape (pathText (resolve passed segs))).length ≤
        (unescape (pathText passed.reverse)).length + (encodeChars (pathText segs)).length ∧
      ((∃ segment ∈ segs, IsDots segment) → (unescape (pathText (resolve passed segs))).length <
        (unescape (pathText passed.reverse)).length + (encodeChars (pathText segs)).length) := by
  induction segs generalizing passed with
  | nil => simp [resolve]
  | cons segment segs ih =>
    rw [length_encodeChars_pathText_cons]
    by_cases hdots : IsDots segment
    · obtain ⟨back, hback, hresolve⟩ := resolve_cons_of_isDots hdots passed segs
      have hlength := length_unescape_pathText_of_suffix hback
      have hsegment : 0 < (encodeChars segment).length := by
        apply length_encodeChars_pos
        rintro rfl
        simp [IsDots, undot] at hdots
      -- at the end of a path dots leave an empty segment, which is still shorter than they are
      have hlt : (unescape (pathText (resolve passed (segment :: segs)))).length <
          (unescape (pathText passed.reverse)).length + (1 + (encodeChars segment).length + (encodeChars (pathText segs)).length) := by
        rw [hresolve]
        by_cases hlast : segs = []
        · rw [if_pos hlast, hlast, resolve, length_unescape_pathText_reverse_cons, unescape_nil, List.length_nil]
          omega
        · have hle := (ih back).1
          rw [if_neg hlast]
          omega
      exact ⟨Nat.le_of_lt hlt, fun _ => hlt⟩
    · obtain ⟨hle, hlt⟩ := ih (escape isEscapedInPath segment :: passed)
      rw [← resolve_cons_of_not_isDots hdots, length_unescape_pathText_reverse_cons, unescape_escape_path] at hle hlt
      have hsegment := length_unescape_le segment
      refine ⟨by omega, ?_⟩
      rintro ⟨other, hother, hotherDots⟩
      obtain rfl | hrest := List.mem_cons.mp hother
      · exact absurd hotherDots hdots
      · have := hlt ⟨other, hrest, hotherDots⟩
        omega

/-- Nothing in the text of a path is read as anything else. -/
structure IsPlainPath (name : List Char) : Prop where
  fragment : '#' ∉ name
  query : '?' ∉ name
  slash : '\\' ∉ name
  escape : ¬HoldsEscape name

/-- Nothing in the value of a parameter is read as anything else, or lost at the end. -/
structure IsPlainValue (value : List Char) : Prop where
  fragment : '#' ∉ value
  next : '&' ∉ value
  escape : ¬HoldsEscape value
  space : value.getLast? ≠ some ' '

/-- The path in what follows the server of an address. -/
def pathOf (behind : List Char) : List Char := (behind.takeWhile (· != '#')).takeWhile (· != '?')

def queryOf (behind : List Char) : Option (List Char) :=
  (cutFirst? '?' (behind.takeWhile (· != '#'))).map fun (_, query) => escape isEscapedInQuery query

lemma undot_eq_of_not_holdsEscape (h : ¬HoldsEscape cs) : undot cs = cs := by
  induction cs using undot.induct with
  | case1 rest => exact absurd ⟨'2', 'e', by decide, by decide, (List.prefix_append _ rest).isInfix⟩ h
  | case2 rest => exact absurd ⟨'2', 'E', by decide, by decide, (List.prefix_append _ rest).isInfix⟩ h
  | case3 c rest hsmall hcapital ih =>
    have hrest : ¬HoldsEscape rest := fun hrest => h (hrest.mono (List.suffix_cons c rest).isInfix)
    rw [undot, ih hrest]
    · exact hsmall
    · exact hcapital
  | case4 => rfl

lemma infix_of_mem_splitAt {mark : Char} (h : segment ∈ splitAt mark cs) : segment <:+: cs := by
  induction cs generalizing segment with
  | nil =>
    obtain rfl := List.mem_singleton.mp h
    exact List.infix_rfl
  | cons c rest ih =>
    have hrest : rest <:+: c :: rest := (List.suffix_cons c rest).isInfix
    by_cases hc : c = mark
    · rw [splitAt, if_pos hc] at h
      obtain rfl | hmem := List.mem_cons.mp h
      · exact List.nil_infix
      · exact (ih hmem).trans hrest
    · obtain ⟨piece, pieces, hsplit⟩ := List.exists_cons_of_ne_nil (splitAt_ne_nil mark rest)
      have hpiece : piece <+: rest := by
        have hhead := head?_splitAt mark rest
        rw [hsplit, List.head?_cons] at hhead
        exact Option.some.inj hhead ▸ List.takeWhile_prefix _
      simp only [splitAt, if_neg hc, hsplit] at h
      obtain rfl | hmem := List.mem_cons.mp h
      · exact ((List.prefix_cons_inj c).mpr hpiece).isInfix
      · exact (ih (hsplit ▸ List.mem_cons_of_mem piece hmem)).trans hrest

lemma pathOf_append_query (name rest : List Char) :
    pathOf (name ++ '?' :: rest) = name.takeWhile fun c => c != '?' && c != '#' := by
  rw [pathOf]
  induction name with
  | nil => rfl
  | cons c name ih =>
    by_cases hfragment : c = '#'
    · simp [hfragment]
    · by_cases hquery : c = '?'
      · simp [hquery]
      · simpa [List.takeWhile_cons, hfragment, hquery] using ih

/-- A text with slashes of one kind. -/
def unslash (cs : List Char) : List Char := cs.map fun c => if c = '\\' then '/' else c

lemma length_encodeChars_unslash (cs : List Char) : (encodeChars (unslash cs)).length = (encodeChars cs).length := by
  induction cs with
  | nil => rfl
  | cons c cs ih =>
    have hcons : unslash (c :: cs) = (if c = '\\' then '/' else c) :: unslash cs := rfl
    rw [hcons, encodeChars_cons, encodeChars_cons c, List.length_append, List.length_append, ih]
    split
    · rename_i hc
      rw [hc, encodeChars_eq ['/'], encodeChars_eq ['\\']]
      rfl
    · rfl

lemma unslash_eq_self_iff : unslash cs = cs ↔ '\\' ∉ cs := by
  constructor
  · intro h hmem
    rw [← h, unslash, List.mem_map] at hmem
    obtain ⟨c, -, hc⟩ := hmem
    split at hc
    · exact absurd hc (by decide)
    · rename_i hne
      exact hne hc
  · intro h
    have hkeep : ∀ c ∈ cs, (if c = '\\' then '/' else c) = id c := by
      intro c hc
      have hne : c ≠ '\\' := by
        rintro rfl
        exact h hc
      exact if_neg hne
    exact (List.map_congr_left hkeep).trans (List.map_id cs)

/-- What is asked for is the path that was meant, exactly if its text is plain. -/
lemma unescape_resolve_eq_iff (hdots : ∀ segment ∈ splitAt '/' name, segment ≠ ['.'] ∧ segment ≠ ['.', '.'])
    (passed : List (List Char)) (rest : List Char) :
    unescape (pathText (resolve passed (segments (pathOf (name ++ '?' :: rest))))) =
      unescape (pathText passed.reverse) ++ encodeChars ('/' :: name) ↔ IsPlainPath name := by
  rw [pathOf_append_query]
  constructor
  · intro h
    set short := name.takeWhile fun c => c != '?' && c != '#'
    have hprefix : short <+: name := List.takeWhile_prefix _
    have hshort : (encodeChars (unslash short)).length ≤ (encodeChars name).length := by
      obtain ⟨more, hmore⟩ := hprefix
      rw [length_encodeChars_unslash, ← hmore, encodeChars_append, List.length_append]
      exact Nat.le_add_right _ _
    have htext : pathText (segments short) = '/' :: unslash short := pathText_splitAt _
    -- the path that was meant is as long as its text, so neither dots nor escapes can have made what is asked for shorter
    have hnodots : ∀ segment ∈ segments short, ¬IsDots segment := by
      intro segment hsegment hsegmentDots
      have hlt := (length_unescape_resolve (segments short) passed).2 ⟨segment, hsegment, hsegmentDots⟩
      rw [h, htext, encodeChars_cons, encodeChars_cons '/' (unslash short), List.length_append, List.length_append,
        List.length_append] at hlt
      omega
    rw [resolve_of_not_isDots hnodots, unescape_pathText_append, unescape_pathText_map_escape, htext, unescape_slash,
      encodeChars_cons '/' name] at h
    have hname : unescape (unslash short) = encodeChars name := List.append_cancel_left (List.append_cancel_left h)
    have hescape : ¬HoldsEscape (unslash short) := not_holdsEscape_of_length_le (by rwa [hname])
    have hunslash : unslash short = name := encodeChars_injective ((unescape_eq_of_not_holdsEscape hescape).symm.trans hname)
    have hall : short = name := hprefix.eq_of_length (by rw [← hunslash, unslash, List.length_map])
    have hplain : ∀ c ∈ name, (c != '?' && c != '#') = true := List.takeWhile_eq_self_iff.mp hall
    exact {
      fragment := fun hmem => by simpa using hplain _ hmem
      query := fun hmem => by simpa using hplain _ hmem
      slash := unslash_eq_self_iff.mp (hall ▸ hunslash)
      escape := hunslash ▸ hescape }
  · intro hplain
    have hshort : name.takeWhile (fun c => c != '?' && c != '#') = name := by
      rw [List.takeWhile_eq_self_iff]
      intro c hc
      simp only [Bool.and_eq_true, bne_iff_ne]
      exact ⟨fun heq => hplain.query (heq ▸ hc), fun heq => hplain.fragment (heq ▸ hc)⟩
    have hsegments : segments name = splitAt '/' name := congrArg (splitAt '/') (unslash_eq_self_iff.mpr hplain.slash)
    have hnodots : ∀ segment ∈ splitAt '/' name, ¬IsDots segment := by
      intro segment hsegment
      have hescape : ¬HoldsEscape segment := fun hholds => hplain.escape (hholds.mono (infix_of_mem_splitAt hsegment))
      rw [IsDots, undot_eq_of_not_holdsEscape hescape, not_or]
      exact hdots segment hsegment
    rw [hshort, hsegments, resolve_of_not_isDots hnodots, unescape_pathText_append, unescape_pathText_map_escape,
      pathText_splitAt, unescape_slash, unescape_eq_of_not_holdsEscape hplain.escape, ← encodeChars_cons]

/-- The names and values of a query. -/
def parameters (query : List Char) : List (List UInt8 × List UInt8) :=
  (splitAt '&' query).map fun parameter =>
    match cutFirst? '=' parameter with
    | some (name, value) => (unescape name, unescape value)
    | none => (unescape parameter, [])

lemma parameters_escape_eq_iff {name : List Char} (hname : escape isEscapedInQuery name = name) (hnext : '&' ∉ name)
    (hequals : '=' ∉ name) (shown value : List Char) :
    parameters (escape isEscapedInQuery (name ++ '=' :: shown)) = [(unescape name, encodeChars value)] ↔
      '&' ∉ shown ∧ unescape shown = encodeChars value := by
  have hquery : escape isEscapedInQuery (name ++ '=' :: shown) = name ++ '=' :: escape isEscapedInQuery shown := by
    rw [escape, List.flatMap_append, ← escape, hname, List.flatMap_cons]
    rfl
  have hmem : '&' ∈ escape isEscapedInQuery shown ↔ '&' ∈ shown := by
    rw [mem_escape_iff (by decide)]
    exact and_iff_left (by decide)
  rw [hquery, parameters]
  by_cases hshown : '&' ∈ shown
  · refine iff_of_false (fun h => ?_) (fun h => h.1 hshown)
    have hlength := congrArg List.length h
    rw [List.length_map, length_splitAt, List.count_append, List.count_cons] at hlength
    have hcount := List.count_pos_iff.mpr (hmem.mpr hshown)
    simp at hlength
    omega
  · have hwhole : '&' ∉ name ++ '=' :: escape isEscapedInQuery shown := by
      simp only [List.mem_append, List.mem_cons, hmem, not_or]
      exact ⟨hnext, by decide, hshown⟩
    rw [splitAt_of_not_mem hwhole, List.map_singleton, cutFirst?_append _ hequals]
    simp [hshown, unescape_escape_query]

lemma ending_eq_rdropWhile (h : ∀ c ∈ cs, 0x20 ≤ c.toNat) : ending cs = cs.rdropWhile fun c => decide (c.toNat ≤ 0x20) := by
  apply List.filter_eq_self.mpr
  intro c hc
  simp [isLineChar_of_le (h c ((List.rdropWhile_prefix _ cs).subset hc))]

lemma rdropWhile_eq_self_iff_space (h : ∀ c ∈ cs, 0x20 ≤ c.toNat) :
    cs.rdropWhile (fun c => decide (c.toNat ≤ 0x20)) = cs ↔ cs.getLast? ≠ some ' ' := by
  rw [List.rdropWhile_eq_self_iff]
  constructor
  · intro hlast hspace
    obtain ⟨front, rfl⟩ := List.getLast?_eq_some_iff.mp hspace
    simpa using hlast (by simp)
  · intro hspace hne hlast
    have hleast := h _ (List.getLast_mem hne)
    rw [decide_eq_true_iff] at hlast
    apply hspace
    rw [List.getLast?_eq_some_getLast hne, ← Char.ofNat_toNat (cs.getLast hne), Nat.le_antisymm hlast hleast]

/-- What arrives of a value is the value, exactly if it is plain. -/
lemma unescape_takeWhile_ending_eq_iff (h : ∀ c ∈ value, 0x20 ≤ c.toNat) :
    '&' ∉ (ending value).takeWhile (· != '#') ∧ unescape ((ending value).takeWhile (· != '#')) = encodeChars value ↔
      IsPlainValue value := by
  rw [ending_eq_rdropWhile h]
  set kept := value.rdropWhile fun c => decide (c.toNat ≤ 0x20)
  have hkept : kept <+: value := List.rdropWhile_prefix _ value
  have hshown : kept.takeWhile (· != '#') <+: kept := List.takeWhile_prefix _
  constructor
  · rintro ⟨hnext, hvalue⟩
    have hescape : ¬HoldsEscape (kept.takeWhile (· != '#')) := by
      apply not_holdsEscape_of_length_le
      obtain ⟨more, hmore⟩ := hshown.trans hkept
      have hlength := congrArg (fun cs => (encodeChars cs).length) hmore
      simp only [encodeChars_append, List.length_append] at hlength
      rw [hvalue]
      omega
    have hall : kept.takeWhile (· != '#') = value :=
      encodeChars_injective ((unescape_eq_of_not_holdsEscape hescape).symm.trans hvalue)
    have hkeptAll : kept = value := hkept.eq_of_length (Nat.le_antisymm hkept.length_le (hall ▸ hshown.length_le))
    exact {
      fragment := fun hmem => by
        rw [hkeptAll, List.takeWhile_eq_self_iff] at hall
        simpa using hall _ hmem
      next := hall ▸ hnext
      escape := hall ▸ hescape
      space := (rdropWhile_eq_self_iff_space h).mp hkeptAll }
  · intro hplain
    have hkeptAll : kept = value := (rdropWhile_eq_self_iff_space h).mpr hplain.space
    have hall : value.takeWhile (· != '#') = value := by
      rw [List.takeWhile_eq_self_iff]
      intro c hc
      exact bne_iff_ne.mpr fun heq => hplain.fragment (heq ▸ hc)
    rw [hkeptAll, hall]
    exact ⟨hplain.next, unescape_eq_of_not_holdsEscape hplain.escape⟩

end CodeOutline.Http.Url
