import CodeOutline.Proofs.Recognition.Arrangement
import CodeOutline.Proofs.Recognition.Go.Grammar

/-! What is recognized in Go: functions, and declarations of types of which each is reported under one kind at most. -/

namespace CodeOutline

namespace Recognition.Go

open Pattern Text

variable {c d : Cursor} {held more : List (List Char)} {take? : Take}

lemma spans_typeHead : typeHead.Spans c d held ↔ c.before = '\n' ∧
    ∃ opening name, IsOpening opening name ∧ c.Reads opening d ∧ Clear isBlank d.rest ∧ held = [name] := by
  have hblanks : (atLeastOne isBlank).bodies = [] := rfl
  have hword : (atLeastOne isAsciiWord).bodies = [] := rfl
  have hkeyword : (literal "type".toList).bodies = [] := rfl
  have hseq : typeHead = seq lineStart (seq (literal "type".toList) (seq (atLeastOne isBlank)
    (seq (group (atLeastOne isAsciiWord)) (atLeastOne isBlank)))) := rfl
  rw [hseq, spans_seq_of_bodies_eq_nil rfl]
  simp only [leads_lineStart, spans_seq_of_bodies_eq_nil hkeyword, spans_seq_of_bodies_eq_nil hblanks,
    spans_seq_group hword, spans_of_bodies_eq_nil hblanks, leads_literal, leads_atLeastOne]
  constructor
  · rintro ⟨_, ⟨rfl, hc⟩, e, hkeyword, f, ⟨first, hfirst, hrfirst, -⟩, g, name, more, ⟨_, hname, hrname, -⟩, hread,
      ⟨⟨second, hsecond, hrsecond, hclear⟩, rfl⟩, rfl⟩
    obtain rfl := hread.mid_unique hrname
    exact ⟨hc, _, name, ⟨first, second, hfirst, hname, hsecond, rfl⟩,
      hkeyword.trans (hrfirst.trans (hrname.trans hrsecond)), hclear, rfl⟩
  · rintro ⟨hc, _, name, ⟨first, second, hfirst, hname, hsecond, rfl⟩, hr, hclear, rfl⟩
    obtain ⟨e, hkeyword, hnamed⟩ := hr.split
    obtain ⟨f, hrfirst, hrest⟩ := hnamed.split
    obtain ⟨g, hrname, hrsecond⟩ := hrest.split
    have hgapped : Clear isBlank f.rest := hname.clear_of_reads hrname fun _ => isBlank_of_isAsciiWord
    have hended : Clear isAsciiWord g.rest := hsecond.clear_of_reads hrsecond fun _ => isAsciiWord_of_isBlank
    exact ⟨c, ⟨rfl, hc⟩, e, hkeyword, f, ⟨first, hfirst, hrfirst, hgapped⟩, g, name, [], ⟨name, hname, hrname, hended⟩,
      hrname, ⟨⟨second, hsecond, hrsecond, hclear⟩, rfl⟩, rfl⟩

lemma spans_word {word : String} (hword : IsRun isWord word.toList) :
    (all [Pattern.text word, wordEdge]).Spans c d more ↔
      ∃ own, c.Reads own d ∧ takeWord word c.rest = some (own, more) := by
  have hliteral : (literal word.toList).bodies = [] := rfl
  have hend : (edge isWord).bodies = [] := rfl
  have hseq : all [Pattern.text word, wordEdge] = seq (literal word.toList) (edge isWord) := rfl
  simp only [hseq, spans_seq_of_bodies_eq_nil hliteral, spans_of_bodies_eq_nil hend, leads_literal, leads_edge, takeWord,
    Option.ite_none_right_eq_some, Option.some.injEq, Prod.mk.injEq]
  have hbefore (hr : c.Reads word.toList d) : isWord d.before = true := by
    rw [hr.before_eq, List.getLastD_eq_getLast?, List.getLast?_eq_some_getLast hword.1]
    exact hword.2 _ (List.getLast_mem _)
  constructor
  · rintro ⟨e, hr, ⟨rfl, hedge⟩, rfl⟩
    rw [atEdge, hbefore hr, bne_iff_ne] at hedge
    have hclear : Clear isWord d.rest := Bool.eq_false_iff.mpr hedge.symm
    refine ⟨_, hr, ?_, rfl, rfl⟩
    rw [leadingWord, hr.rest_eq, takeWhile_append_of_clear hclear, List.takeWhile_eq_self_iff.mpr hword.2]
  · rintro ⟨_, hr, hlead, rfl, rfl⟩
    refine ⟨d, hr, ⟨rfl, ?_⟩, rfl⟩
    have hpass : d = c.pass isWord := hr.unique (hlead ▸ c.reads_pass isWord)
    have hclear : Clear isWord d.rest := hpass ▸ c.head?_pass isWord
    rw [atEdge, hbefore hr, hclear]
    rfl

lemma spans_token : (group (atLeastOne isInk)).Spans c d more ↔
    ∃ own, c.Reads own d ∧ takeToken c.rest = some (own, more) := by
  simp only [spans_group (show (atLeastOne isInk).bodies = [] from rfl), leads_atLeastOne, takeToken,
    Option.ite_none_left_eq_some, Option.some.injEq, Prod.mk.injEq]
  constructor
  · rintro ⟨own, ⟨_, hown, hr, hclear⟩, hread, rfl⟩
    obtain rfl := hread.mid_unique hr
    have htoken : token c.rest = own := by
      rw [token, hr.rest_eq, takeWhile_append_of_clear hclear, List.takeWhile_eq_self_iff.mpr hown.2]
    exact ⟨own, hr, htoken ▸ hown.1, htoken, htoken ▸ rfl⟩
  · rintro ⟨_, hr, hne, rfl, rfl⟩
    have hpass : d = c.pass isInk := hr.unique (c.reads_pass isInk)
    exact ⟨_, ⟨_, ⟨hne, fun _ => List.mem_takeWhile_imp⟩, hr, hpass ▸ c.head?_pass isInk⟩, hr, rfl⟩

lemma readsHeads_seq {tail : Pattern}
    (htail : ∀ c d more, tail.Spans c d more ↔ ∃ own, c.Reads own d ∧ take? c.rest = some (own, more)) :
    ReadsHeads (seq typeHead tail) (IsHead take?) := by
  intro c d held
  simp only [spans_seq, spans_typeHead, htail]
  constructor
  · rintro ⟨e, _, more, ⟨hc, opening, name, hopening, hr, hclear, rfl⟩, ⟨own, hrown, htake⟩, rfl⟩
    have htarget := hrown.rest_eq
    exact ⟨hc, _, hr.trans hrown, opening, name, own, more, hopening, htarget ▸ hclear, htarget ▸ htake, rfl, rfl⟩
  · rintro ⟨hc, _, hr, opening, name, own, more, hopening, hclear, htake, rfl, rfl⟩
    obtain ⟨e, hropening, hrown⟩ := hr.split
    have htarget := hrown.rest_eq
    exact ⟨e, [name], more, ⟨hc, opening, name, hopening, hropening, htarget ▸ hclear, rfl⟩,
      ⟨own, hrown, htarget ▸ htake⟩, rfl⟩

lemma readsHeads_structPattern : ReadsHeads structPattern (IsHead (takeWord "struct")) :=
  readsHeads_seq fun _ _ _ => spans_word (by decide)

lemma readsHeads_interfacePattern : ReadsHeads interfacePattern (IsHead (takeWord "interface")) :=
  readsHeads_seq fun _ _ _ => spans_word (by decide)

lemma readsHeads_typePattern : ReadsHeads typePattern (IsHead takeToken) :=
  readsHeads_seq fun _ _ _ => spans_token

/-! The types that are reported, kind by kind. -/

variable {text name target : List Char} {kind : Element.Kind} {p : Pattern} {taken : List Stretch} {place : Nat}
  {n : UInt32} {s : Stretch} {content : String} {e e' : Element}

/-- No declaration reaches over the end of a line before its target. -/
def KeepsToLines (text : List Char) : Prop :=
  ∀ place opening name target, IsLineStart text place → IsOpening opening name → text.drop place = opening ++ target →
    Clear isBlank target → '\n' ∉ opening

lemma newline_notMem_of_isHead (hlines : KeepsToLines text) (hfair : IsFair take?) (h : IsHeaded (IsHead take?) text s) :
    '\n' ∉ (text.drop s.start).take (s.stop - s.start) := by
  obtain ⟨hline, hdrop, opening, name, own, more, hopening, hclear, htake, rfl, rfl⟩ := h
  rw [hdrop, Nat.add_sub_cancel_left, List.take_left, List.mem_append, not_or]
  rw [List.append_assoc] at hdrop
  exact ⟨hlines _ _ _ _ hline hopening hdrop hclear, (hfair _ _ _ htake).2⟩

/-- The declarations that are reported under a kind. Where one reaches over the end of a line it may hide another. -/
structure Shown (text : List Char) (kind : Element.Kind) (taken : List Stretch) : Prop where
  increasing : taken.Pairwise fun s later => s.lineIn text < later.lineIn text
  declares : ∀ s ∈ taken, ∃ name target,
    Declares text s.start name target ∧ Shows kind target ∧ s.name = String.ofList name
  complete : KeepsToLines text → ∀ place name target, Declares text place name target → Shows kind target →
    ∃ s ∈ taken, s.start = place ∧ s.name = String.ofList name

lemma name_eq_of_held_eq {more : List (List Char)} (h : s.held = name :: more) : s.name = String.ofList name := by
  rw [Stretch.name, h, List.headD_cons]

/-- A pattern that keeps to the heads of declarations shows those of a kind, as far as they are told by what it holds. -/
lemma exists_shown (keep : List (List Char) → Bool) (hp : p.consumes = true) (hreads : ReadsHeads p (IsHead take?))
    (hfair : IsFair take?)
    (hkeep : ∀ target own more name, take? target = some (own, more) → (keep (name :: more) = true ↔ Shows kind target))
    (hsome : ∀ target, Clear isBlank target → Shows kind target → (take? target).isSome) (text : List Char) :
    ∃ taken, Shown text kind taken ∧
      (((Source.ofText text).sightings p).filter fun s => keep s.groups).map (·.element kind) =
        taken.map fun s => ⟨kind, s.name, (s.lineIn text).toUInt32⟩ := by
  have hsettles := settles_isHead take?
  obtain ⟨taken, hturn, hs⟩ := Stretch.exists_inTurn hp (describe_isHeaded hreads hsettles text)
  refine ⟨taken.filter fun s => keep s.held, ⟨(lines_increase hsettles hturn).filter _, ?_, ?_⟩, ?_⟩
  · intro s hmem
    obtain ⟨hs, hkept⟩ := List.mem_filter.mp hmem
    obtain ⟨name, target, own, more, hdeclares, htake, hheld⟩ := exists_declares_of_isHeaded (hturn.fits s hs)
    rw [hheld] at hkept
    exact ⟨name, target, hdeclares, (hkeep _ _ _ _ htake).mp hkept, name_eq_of_held_eq hheld⟩
  · intro hlines place name target hdeclares hshows
    obtain ⟨⟨own, more⟩, htake⟩ := Option.isSome_iff_exists.mp (hsome target hdeclares.clear hshows)
    obtain ⟨s, hs, hstart, hheld⟩ := hdeclares.exists_isHeaded hfair htake
    have hmem := (mem_iff_of_newline_notMem hsettles hturn fun _ => newline_notMem_of_isHead hlines hfair).mpr hs
    refine ⟨s, List.mem_filter.mpr ⟨hmem, ?_⟩, hstart, name_eq_of_held_eq hheld⟩
    rw [hheld]
    exact (hkeep _ _ _ _ htake).mpr hshows
  · rw [hs, List.filter_map, List.map_map]
    rfl

lemma exists_shown_word {word : String} (hkind : ∀ target, Shows kind target ↔ leadingWord target = word.toList)
    (hnewline : '\n' ∉ word.toList) (hp : p.consumes = true) (hreads : ReadsHeads p (IsHead (takeWord word)))
    (text : List Char) : ∃ taken, Shown text kind taken ∧
      (Source.ofText text).elements kind p = taken.map fun s => ⟨kind, s.name, (s.lineIn text).toUInt32⟩ := by
  have hshows : ∀ target own more, takeWord word target = some (own, more) → Shows kind target := by
    intro target own more htake
    rw [takeWord, Option.ite_none_right_eq_some] at htake
    exact (hkind target).mpr htake.1
  have hsome : ∀ target, Clear isBlank target → Shows kind target → (takeWord word target).isSome := by
    intro target _ hshows
    rw [takeWord, if_pos ((hkind target).mp hshows)]
    rfl
  obtain ⟨taken, hshown, heq⟩ := exists_shown (fun _ => true) hp hreads (isFair_takeWord hnewline)
    (fun target own more _ htake => iff_of_true rfl (hshows target own more htake)) hsome text
  rw [List.filter_true] at heq
  exact ⟨taken, hshown, heq⟩

lemma definesPlainType_iff :
    definesPlainType ⟨n, [name, token target]⟩ = true ↔ ¬ BeginsAsOther target := by
  rw [← beginsAsOther_token, BeginsAsOther, ← List.isPrefixOf_iff_prefix, ← List.isPrefixOf_iff_prefix, ← Bool.or_eq_true,
    Bool.not_eq_true, ← Bool.not_eq_true']
  rfl

lemma exists_shown_token (text : List Char) : ∃ taken, Shown text .typeDecl taken ∧
    (((Source.ofText text).sightings typePattern).filter definesPlainType).map (·.element .typeDecl) =
      taken.map fun s => ⟨.typeDecl, s.name, (s.lineIn text).toUInt32⟩ := by
  refine exists_shown (fun held => definesPlainType ⟨0, held⟩) rfl readsHeads_typePattern isFair_takeToken ?_ ?_ text
  · intro target own more name htake
    rw [takeToken, Option.ite_none_left_eq_some] at htake
    obtain ⟨hne, htake⟩ := htake
    obtain ⟨-, rfl⟩ := Prod.mk.inj (Option.some.inj htake)
    have htarget : target ≠ [] := by
      rintro rfl
      exact hne rfl
    rw [definesPlainType_iff, shows_typeDecl_iff, and_iff_right htarget]
  · intro target hclear hshows
    rw [takeToken, if_neg (token_ne_nil hclear hshows.2.1)]
    rfl

lemma exists_block (hk : kind ∈ [.classDecl, .interfaceDecl, .typeDecl]) (content : String) :
    ∃ taken, Shown content.toList kind taken ∧ blockOf kind (Language.go.scan content) =
      taken.map fun s => ⟨kind, s.name, (s.lineIn content.toList).toUInt32⟩ := by
  have hne : kind ≠ .moduleExport := by
    rintro rfl
    exact absurd hk (by decide)
  simp only [List.mem_cons, List.not_mem_nil, or_false] at hk
  rcases hk with rfl | rfl | rfl
  · rw [blockOf_scan_of_every (p := structPattern) hne rfl]
    exact exists_shown_word (fun _ => (shows_iff_kindOf_eq (by decide)).trans kindOf_eq_classDecl_iff) (by decide) rfl
      readsHeads_structPattern _
  · rw [blockOf_scan_of_every (p := interfacePattern) hne rfl]
    exact exists_shown_word (fun _ => (shows_iff_kindOf_eq (by decide)).trans kindOf_eq_interfaceDecl_iff) (by decide) rfl
      readsHeads_interfacePattern _
  · have hpasses : Language.go.passes.filter (fun pass => decide (pass.kind = .typeDecl)) =
        [.plainTypes typePattern] := rfl
    rw [Language.scan, blockOf_recognize _ hne, hpasses, List.flatMap_singleton, Pass.run_plainTypes]
    exact exists_shown_token _

/-! Every element stands for what one line begins with. -/

/-- What stands at the place is what the element reports. -/
inductive Reports (text : List Char) (place : Nat) : Element → Prop
  | function {name line} : "func".toList <+: text.drop place → Reports text place ⟨.function, name, line⟩
  | type {kind name target line} : Declares text place name target → Shows kind target →
      Reports text place ⟨kind, String.ofList name, line⟩

lemma Reports.eq_of_declares (h : Reports text place e) (hdeclares : Declares text place name target) :
    e.kind = kindOf target ∧ e.name = String.ofList name ∧ Shows e.kind target := by
  cases h with
  | function hfunc => exact absurd hfunc hdeclares.not_func
  | type hdeclares' hshows =>
    obtain ⟨rfl, rfl⟩ := hdeclares'.unique hdeclares
    exact ⟨hshows.1.symm, rfl, hshows⟩

lemma Reports.kind_eq (h : Reports text place e) (h' : Reports text place e') : e.kind = e'.kind := by
  cases h with
  | function hfunc =>
    cases h' with
    | function => rfl
    | type hdeclares => exact absurd hfunc hdeclares.not_func
  | type hdeclares hshows => exact hshows.1.symm.trans (h'.eq_of_declares hdeclares).1.symm

lemma exists_place_of_function {seen : Sighting} (hs : seen ∈ (Source.ofText text).sightings functionPattern) :
    ∃ place, IsLineStart text place ∧ seen.line = (lineNumber text place).toUInt32 ∧
      "func".toList <+: text.drop place := by
  obtain ⟨before, c, m, hr, hm, hline, -⟩ := exists_match_of_mem (p := functionPattern) rfl hs
  obtain ⟨a, ha, b, hb, -⟩ := mem_seq.mp hm
  obtain ⟨rfl, hc⟩ := mem_lineStart.mp ha
  obtain ⟨f, hf, -⟩ := mem_seq.mp hb
  have htext : text = before ++ c.rest := hr.rest_eq
  refine ⟨before.length, (isLineStart_iff hr).mp hc, ?_, ?_⟩
  · rw [hline, lineNumber, htext, List.take_left]
  · rw [drop_length hr]
    exact ⟨_, (mem_literal.mp hf).2.rest_eq.symm⟩

lemma scan_eq_blocks (content : String) :
    Language.go.scan content = Language.go.order.flatMap (blockOf · (Language.go.scan content)) := by
  have hexports : blockOf .moduleExport (Language.go.scan content) = [] := by
    rw [Language.scan, exports_recognize]
    split <;> rfl
  have hblocks := recognize_eq_blocks (Source.ofText content.toList) .go
  rwa [← Language.scan, hexports, List.append_nil] at hblocks

lemma functionsOf_scan (content : String) :
    functionsOf (Language.go.scan content) = (Source.ofText content.toList).elements .function functionPattern :=
  blockOf_scan_of_every (by decide) rfl content

lemma exists_reports_of_mem (he : e ∈ Language.go.scan content) : ∃ place, IsLineStart content.toList place ∧
    e.line = (lineNumber content.toList place).toUInt32 ∧ Reports content.toList place e := by
  rw [scan_eq_blocks, List.mem_flatMap] at he
  obtain ⟨kind, hkind, he⟩ := he
  rcases List.mem_cons.mp hkind with rfl | hk
  · have hfunctions : blockOf .function (Language.go.scan content) = _ := functionsOf_scan content
    rw [hfunctions] at he
    obtain ⟨seen, hs, rfl⟩ := List.mem_map.mp he
    obtain ⟨place, hstart, hline, hfunc⟩ := exists_place_of_function hs
    exact ⟨place, hstart, hline, .function hfunc⟩
  · obtain ⟨taken, hshown, hblock⟩ := exists_block hk content
    rw [hblock] at he
    obtain ⟨s, hs, rfl⟩ := List.mem_map.mp he
    obtain ⟨name, target, hdeclares, hshows, hname⟩ := hshown.declares s hs
    exact ⟨s.start, hdeclares.1, rfl, hname ▸ .type hdeclares hshows⟩

lemma toNat_lineNumber (hn : text.count '\n' < 2 ^ 32 - 1) (place : Nat) :
    (lineNumber text place).toUInt32.toNat = lineNumber text place := Stretch.toNat_lineIn hn ⟨place, place, []⟩

lemma reports_of_line_eq (hn : content.toList.count '\n' < 2 ^ 32 - 1) (he : e ∈ Language.go.scan content)
    (hstart : IsLineStart content.toList place) (hline : e.line.toNat = lineNumber content.toList place) :
    Reports content.toList place e := by
  obtain ⟨place', hstart', hline', hreports⟩ := exists_reports_of_mem he
  rw [hline', toNat_lineNumber hn] at hline
  exact place_eq_of_lineNumber_eq hstart' hstart hline ▸ hreports

lemma kind_eq_of_line_eq (hn : content.toList.count '\n' < 2 ^ 32 - 1) (he : e ∈ Language.go.scan content)
    (he' : e' ∈ Language.go.scan content) (hline : e.line = e'.line) : e.kind = e'.kind := by
  obtain ⟨place, hstart, hplace, hreports⟩ := exists_reports_of_mem he
  refine hreports.kind_eq (reports_of_line_eq hn he' hstart ?_)
  rw [← hline, hplace, toNat_lineNumber hn]

lemma lines_nodup (hn : content.toList.count '\n' < 2 ^ 32 - 1) : ((Language.go.scan content).map (·.line)).Nodup := by
  rw [List.Nodup, List.pairwise_map, scan_eq_blocks, List.pairwise_flatMap]
  constructor
  · intro kind hkind
    have hblock : (blockOf kind (Language.go.scan content)).Pairwise fun e later => e.line < later.line :=
      blockOf_pairwise _ (by cases kind <;> rfl) (ne_moduleExport_of_mem_order hkind)
        fun p hp ha => lines_increasing hp (ha (by cases kind <;> rfl)) hn
    exact hblock.imp fun hlt => (UInt32.ne_of_lt hlt)
  · have hkinds : Language.go.order.Nodup := by decide
    refine hkinds.imp fun {kind other} hne e he e' he' hline => hne ?_
    obtain ⟨he, hkind⟩ := List.mem_filter.mp he
    obtain ⟨he', hother⟩ := List.mem_filter.mp he'
    rw [← of_decide_eq_true hkind, ← of_decide_eq_true hother]
    exact kind_eq_of_line_eq hn he he' hline

/-- What is recognized in a text: one element on a line at most, behind the word for its kind in the first column. -/
structure Separates (content : String) : Prop where
  lines_nodup : ((Language.go.scan content).map (·.line)).Nodup
  function_line : ∀ e ∈ Language.go.scan content, e.kind = .function →
    ∃ line, IsLineAt content.toList e.line.toNat line ∧ "func".toList <+: line
  type_line : ∀ e ∈ Language.go.scan content, e.kind ≠ .function →
    ∃ line, IsLineAt content.toList e.line.toNat line ∧ "type".toList <+: line
  declared : ∀ e ∈ Language.go.scan content, e.kind ≠ .function → ∃ place name target,
    Declares content.toList place name target ∧ e.line.toNat = lineNumber content.toList place
  sole_kind : ∀ place name target, Declares content.toList place name target →
    ∀ e ∈ Language.go.scan content, e.line.toNat = lineNumber content.toList place →
      e.kind = kindOf target ∧ e.name = String.ofList name

lemma isLineAt_of_prefix_drop {word : String} (hnewline : '\n' ∉ word.toList) (hstart : IsLineStart text place)
    (hbegins : word.toList <+: text.drop place) :
    ∃ line, IsLineAt text (lineNumber text place) line ∧ word.toList <+: line :=
  ⟨_, isLineAt_of_isLineStart hstart, (prefix_lineFrom_iff hnewline).mpr hbegins⟩

theorem separates_of_count_lt (hn : content.toList.count '\n' < 2 ^ 32 - 1) : Separates content := by
  have hline {place : Nat} {e : Element} (h : e.line = (lineNumber content.toList place).toUInt32) :
      e.line.toNat = lineNumber content.toList place := by rw [h, toNat_lineNumber hn]
  constructor
  case lines_nodup => exact lines_nodup hn
  case function_line =>
    intro e he hk
    obtain ⟨place, hstart, hplace, hreports⟩ := exists_reports_of_mem he
    rw [hline hplace]
    cases hreports with
    | function hfunc => exact isLineAt_of_prefix_drop (by decide) hstart hfunc
    | @type _ _ target _ _ hshows =>
      have hkind := kindOf_mem target
      rw [hshows.1.trans hk] at hkind
      exact absurd hkind (by decide)
  case type_line =>
    intro e he hk
    obtain ⟨place, hstart, hplace, hreports⟩ := exists_reports_of_mem he
    rw [hline hplace]
    cases hreports with
    | function => exact absurd rfl hk
    | type hdeclares => exact isLineAt_of_prefix_drop (by decide) hstart hdeclares.prefix_drop
  case declared =>
    intro e he hk
    obtain ⟨place, hstart, hplace, hreports⟩ := exists_reports_of_mem he
    cases hreports with
    | function => exact absurd rfl hk
    | @type _ name target _ hdeclares _ => exact ⟨place, name, target, hdeclares, hline hplace⟩
  case sole_kind =>
    intro place name target hdeclares e he hplace
    obtain ⟨hkind, hname, -⟩ := (reports_of_line_eq hn he hdeclares.1 hplace).eq_of_declares hdeclares
    exact ⟨hkind, hname⟩

/-- Declarations that go on in the next line, an alias of a struct, and a type that is not reported. -/
theorem separates_of_count_lt_split_declarations :
    let content := "type A\nstruct \x7b\x7d\ntype\nB interface\nfunc f() \x7b\ntype C structural\ntype D = struct\x7b\x7d"
    Separates content ∧ Language.go.scan content =
      [⟨.function, "f", 5⟩, ⟨.classDecl, "A", 1⟩, ⟨.interfaceDecl, "B", 3⟩, ⟨.typeDecl, "D", 7⟩] := by
  intro content
  exact ⟨separates_of_count_lt (by decide), by decide +kernel⟩

end Recognition.Go

end CodeOutline
