import CodeOutline.Proofs.Recognition.Go.Declarations

/-! The functions that are recognized in Go are the heads of the grammar, each the leftmost one behind the one before. -/

namespace CodeOutline

namespace Recognition.Go

open Pattern Text

def IsEnclosed (opening closing : Char) (text : List Char) : Prop :=
  ∃ inner, closing ∉ inner ∧ text = opening :: inner ++ [closing]

def IsReceiver (text : List Char) : Prop :=
  text = [] ∨ ∃ enclosed blanks, IsEnclosed '(' ')' enclosed ∧ IsBlanks blanks ∧ text = enclosed ++ blanks

def IsTypeParameters (text : List Char) : Prop := text = [] ∨ IsEnclosed '[' ']' text

/-- The word at its place is the whole name: what follows it is a blank, a bracket or a parenthesis. -/
def IsFunctionHead (head name : List Char) : Prop :=
  ∃ gap receiver blanks parameters, IsRun isBlank gap ∧ IsReceiver receiver ∧ IsRun isAsciiWord name ∧ IsBlanks blanks ∧
    IsTypeParameters parameters ∧
    head = "func".toList ++ (gap ++ (receiver ++ (name ++ (blanks ++ (parameters ++ ['('])))))

variable {c d : Cursor} {text other rest rest' name : List Char} {opening closing : Char}

/-! A text begins with one head at most. -/

lemma IsEnclosed.unique (h : IsEnclosed opening closing text) (h' : IsEnclosed opening closing other)
    (heq : text ++ rest = other ++ rest') : text = other ∧ rest = rest' := by
  obtain ⟨inner, hinner, rfl⟩ := h
  obtain ⟨inner', hinner', rfl⟩ := h'
  simp only [List.cons_append, List.append_assoc] at heq
  obtain ⟨rfl, rfl⟩ := eq_of_append_mark_eq hinner hinner' (List.cons.inj heq).2
  exact ⟨rfl, rfl⟩

lemma IsEnclosed.exists_cons (h : IsEnclosed opening closing text) : ∃ more, text = opening :: more := by
  obtain ⟨inner, -, rfl⟩ := h
  exact ⟨_, rfl⟩

lemma IsReceiver.clear (h : IsReceiver text) (hname : IsRun isAsciiWord name) :
    Clear isBlank (text ++ (name ++ rest)) := by
  rcases h with rfl | ⟨enclosed, blanks, henclosed, -, rfl⟩
  · exact hname.clear fun _ => isBlank_of_isAsciiWord
  · obtain ⟨more, rfl⟩ := henclosed.exists_cons
    exact (by decide : isBlank '(' = false)

lemma IsReceiver.unique {name' : List Char} (h : IsReceiver text) (h' : IsReceiver other) (hname : IsRun isAsciiWord name)
    (hname' : IsRun isAsciiWord name') (heq : text ++ (name ++ rest) = other ++ (name' ++ rest')) :
    text = other ∧ name ++ rest = name' ++ rest' := by
  have hblank : Clear isBlank (name ++ rest) := hname.clear fun _ => isBlank_of_isAsciiWord
  have hblank' : Clear isBlank (name' ++ rest') := hname'.clear fun _ => isBlank_of_isAsciiWord
  obtain ⟨x, letters, rfl, hx⟩ := hname.exists_cons
  obtain ⟨x', letters', rfl, hx'⟩ := hname'.exists_cons
  rcases h with rfl | ⟨enclosed, blanks, henclosed, hblanks, rfl⟩ <;>
    rcases h' with rfl | ⟨enclosed', blanks', henclosed', hblanks', rfl⟩
  · exact ⟨rfl, heq⟩
  · obtain ⟨more, rfl⟩ := henclosed'.exists_cons
    obtain rfl : x = '(' := (List.cons.inj heq).1
    exact absurd hx (by decide)
  · obtain ⟨more, rfl⟩ := henclosed.exists_cons
    obtain rfl : '(' = x' := (List.cons.inj heq).1
    exact absurd hx' (by decide)
  · rw [List.append_assoc, List.append_assoc] at heq
    obtain ⟨rfl, hspaced⟩ := henclosed.unique henclosed' heq
    obtain ⟨rfl, hnamed⟩ := eq_of_append_eq_of_clear hblanks hblanks' hblank hblank' hspaced
    exact ⟨rfl, hnamed⟩

lemma IsTypeParameters.clear {set : Char → Bool} (hbracket : set '[' = false) (hparen : set '(' = false)
    (h : IsTypeParameters text) : Clear set (text ++ '(' :: rest) := by
  rcases h with rfl | henclosed
  · exact hparen
  · obtain ⟨more, rfl⟩ := henclosed.exists_cons
    exact hbracket

lemma IsTypeParameters.unique (h : IsTypeParameters text) (h' : IsTypeParameters other)
    (heq : text ++ '(' :: rest = other ++ '(' :: rest') : text = other := by
  rcases h with rfl | henclosed <;> rcases h' with rfl | henclosed'
  · rfl
  · obtain ⟨more, rfl⟩ := henclosed'.exists_cons
    exact absurd (List.cons.inj heq).1 (by decide)
  · obtain ⟨more, rfl⟩ := henclosed.exists_cons
    exact absurd (List.cons.inj heq).1 (by decide)
  · exact (henclosed.unique henclosed' heq).1

lemma settles_isFunctionHead : Settles (Naming IsFunctionHead) where
  ne_nil := by
    rintro _ rest _ ⟨name, ⟨gap, receiver, blanks, parameters, -, -, -, -, -, rfl⟩, rfl⟩
    exact List.cons_ne_nil _ _
  unique := by
    rintro _ rest _ _ rest' _
      ⟨name, ⟨gap, receiver, blanks, parameters, hgap, hreceiver, hname, hblanks, hparameters, rfl⟩, rfl⟩
      ⟨name', ⟨gap', receiver', blanks', parameters', hgap', hreceiver', hname', hblanks', hparameters', rfl⟩, rfl⟩ heq
    simp only [List.append_assoc, List.singleton_append] at heq
    obtain ⟨rfl, hreceived⟩ := eq_of_append_eq_of_clear hgap.2 hgap'.2 (hreceiver.clear hname) (hreceiver'.clear hname')
      (List.append_cancel_left heq)
    obtain ⟨rfl, hnamed⟩ := hreceiver.unique hreceiver' hname hname' hreceived
    obtain ⟨rfl, hspaced⟩ := eq_of_append_eq_of_clear hname.2 hname'.2 (hblanks.clear (hparameters.clear rfl rfl))
      (hblanks'.clear (hparameters'.clear rfl rfl)) hnamed
    obtain ⟨rfl, hopened⟩ := eq_of_append_eq_of_clear hblanks hblanks' (hparameters.clear rfl rfl)
      (hparameters'.clear rfl rfl) hspaced
    obtain rfl := hparameters.unique hparameters' hopened
    exact ⟨rfl, rfl⟩

/-! The pattern reads the heads. -/

def receiver : Pattern := optional (all [parenthesized, blanks])

def argumentStart : Pattern := all [blanks, optional (upToFirst '[' ']'), Pattern.text "("]

lemma leads_enclosed :
    (upToFirst opening closing).Leads c d ↔ ∃ text, IsEnclosed opening closing text ∧ c.Reads text d := by
  rw [leads_upToFirst]
  constructor
  · rintro ⟨inner, hinner, hr⟩
    exact ⟨_, ⟨inner, hinner, rfl⟩, hr⟩
  · rintro ⟨_, ⟨inner, hinner, rfl⟩, hr⟩
    exact ⟨inner, hinner, hr⟩

lemma leads_receiver (hclear : Clear isBlank d.rest) :
    receiver.Leads c d ↔ ∃ text, IsReceiver text ∧ c.Reads text d := by
  simp only [receiver, all, parenthesized, blanks, leads_optional, leads_seq, leads_enclosed, leads_run]
  constructor
  · rintro (⟨e, ⟨enclosed, henclosed, hr⟩, blanks, hblanks, hr', -⟩ | rfl)
    · exact ⟨_, .inr ⟨enclosed, blanks, henclosed, hblanks, rfl⟩, hr.trans hr'⟩
    · exact ⟨[], .inl rfl, .refl⟩
  · rintro ⟨_, rfl | ⟨enclosed, blanks, henclosed, hblanks, rfl⟩, hr⟩
    · cases hr
      exact .inr rfl
    · obtain ⟨e, hr, hr'⟩ := hr.split
      exact .inl ⟨e, ⟨enclosed, henclosed, hr⟩, blanks, hblanks, hr', hclear⟩

lemma leads_argumentStart : argumentStart.Leads c d ↔
    ∃ blanks parameters, IsBlanks blanks ∧ IsTypeParameters parameters ∧ c.Reads (blanks ++ (parameters ++ ['('])) d := by
  simp only [argumentStart, all, Pattern.blanks, Pattern.text, leads_seq, leads_optional, leads_enclosed, leads_run,
    leads_literal]
  constructor
  · rintro ⟨e, ⟨blanks, hblanks, hr, -⟩, f, ⟨parameters, henclosed, hr'⟩ | rfl, hopen⟩
    · exact ⟨blanks, parameters, hblanks, .inr henclosed, hr.trans (hr'.trans hopen)⟩
    · exact ⟨blanks, [], hblanks, .inl rfl, hr.trans hopen⟩
  · rintro ⟨blanks, parameters, hblanks, hparameters, hr⟩
    obtain ⟨e, hr, hr'⟩ := hr.split
    have hclear : Clear isBlank e.rest := by
      rw [hr'.rest_eq, List.append_assoc]
      exact hparameters.clear rfl rfl
    obtain ⟨f, hr', hopen⟩ := hr'.split
    refine ⟨e, ⟨blanks, hblanks, hr, hclear⟩, f, ?_, hopen⟩
    rcases hparameters with rfl | henclosed
    · cases hr'
      exact .inr rfl
    · exact .inl ⟨parameters, henclosed, hr'⟩

lemma readsHeads_functionPattern : ReadsHeads functionPattern (Naming IsFunctionHead) := by
  intro c d held
  have hkeyword : (literal "func".toList).bodies = [] := rfl
  have hgaps : (atLeastOne isBlank).bodies = [] := rfl
  have hreceivers : receiver.bodies = [] := rfl
  have hword : (atLeastOne isAsciiWord).bodies = [] := rfl
  have hstart : argumentStart.bodies = [] := rfl
  have hseq : functionPattern = seq lineStart (seq (literal "func".toList) (seq (atLeastOne isBlank) (seq receiver
    (seq (group (atLeastOne isAsciiWord)) argumentStart)))) := rfl
  rw [hseq, spans_seq_of_bodies_eq_nil rfl]
  simp only [leads_lineStart, spans_seq_of_bodies_eq_nil hkeyword, spans_seq_of_bodies_eq_nil hgaps,
    spans_seq_of_bodies_eq_nil hreceivers, spans_seq_group hword, spans_of_bodies_eq_nil hstart, leads_literal,
    leads_atLeastOne, leads_argumentStart]
  constructor
  · rintro ⟨_, ⟨rfl, hc⟩, e, hkeyword, f, ⟨gap, hgap, hrgap, -⟩, g, hreceiver, h, name, -, ⟨_, hname, hrname, -⟩, hread,
      ⟨⟨blanks, parameters, hblanks, hparameters, hr⟩, rfl⟩, rfl⟩
    obtain rfl := hread.mid_unique hrname
    have hclear : Clear isBlank g.rest := hname.clear_of_reads hrname fun _ => isBlank_of_isAsciiWord
    obtain ⟨receiver, hreceiver, hrreceiver⟩ := (leads_receiver hclear).mp hreceiver
    exact ⟨hc, _, hkeyword.trans (hrgap.trans (hrreceiver.trans (hrname.trans hr))), name,
      ⟨gap, receiver, blanks, parameters, hgap, hreceiver, hname, hblanks, hparameters, rfl⟩, rfl⟩
  · rintro ⟨hc, _, hr, name, ⟨gap, receiver, blanks, parameters, hgap, hreceiver, hname, hblanks, hparameters, rfl⟩, rfl⟩
    obtain ⟨e, hkeyword, hr⟩ := hr.split
    obtain ⟨f, hrgap, hr⟩ := hr.split
    obtain ⟨g, hrreceiver, hr⟩ := hr.split
    obtain ⟨h, hrname, hr⟩ := hr.split
    -- every run on the way is taken as far as it goes, so each has to end where the next part begins
    have hgapped : Clear isBlank f.rest := by
      rw [hrreceiver.rest_eq, hrname.rest_eq]
      exact hreceiver.clear hname
    have hreceived : Clear isBlank g.rest := hname.clear_of_reads hrname fun _ => isBlank_of_isAsciiWord
    have hnamed : Clear isAsciiWord h.rest := by
      rw [hr.rest_eq, List.append_assoc, List.append_assoc]
      exact hblanks.clear (hparameters.clear rfl rfl)
    exact ⟨c, ⟨rfl, hc⟩, e, hkeyword, f, ⟨gap, hgap, hrgap, hgapped⟩, g,
      (leads_receiver hreceived).mpr ⟨receiver, hreceiver, hrreceiver⟩, h, name, [], ⟨name, hname, hrname, hnamed⟩, hrname,
      ⟨⟨blanks, parameters, hblanks, hparameters, hr⟩, rfl⟩, rfl⟩

/-! What is found in a text. -/

def IsFunction (text : List Char) (s : Stretch) : Prop := IsHeaded (Naming IsFunctionHead) text s

lemma describe_isFunction (text : List Char) : Stretch.Describe functionPattern text (IsFunction text) :=
  describe_isHeaded readsHeads_functionPattern settles_isFunctionHead text

variable {content : String} {taken : List Stretch}

/-- What the functions of a text are: the heads that start lines, each the leftmost one behind the one before, with their
names and lines. -/
structure ReportsFunctions (content : String) (taken : List Stretch) : Prop where
  starts_iff : ∀ before c, (Cursor.start content.toList).Reads before c → ((functionPattern.matchAt? c).isSome ↔
    IsLineStart content.toList before.length ∧
      ∃ head name, IsFunctionHead head name ∧ head <+: content.toList.drop before.length)
  eq_of_start_eq : ∀ s t, IsFunction content.toList s → IsFunction content.toList t → s.start = t.start → s = t
  inTurn : Stretch.InTurn (IsFunction content.toList) 0 taken
  functions_eq : (functionsOf (Language.go.scan content)).map (fun e => (e.name, e.line.toNat)) =
    taken.map fun s => (s.name, s.lineIn content.toList)

theorem existsUnique_reportsFunctions (hn : content.toList.count '\n' < 2 ^ 32 - 1) :
    ∃! taken, ReportsFunctions content taken := by
  have hone : ∀ s t, IsFunction content.toList s → IsFunction content.toList t → s.start = t.start → s = t :=
    fun _ _ => IsHeaded.eq_of_start_eq settles_isFunctionHead
  obtain ⟨taken, hturn, hs⟩ := Stretch.exists_inTurn (p := functionPattern) rfl (describe_isFunction content.toList)
  refine ⟨taken, ⟨?_, hone, hturn, ?_⟩, fun other hother => hother.inTurn.unique hone hturn⟩
  · intro before c hr
    rw [(describe_isFunction content.toList).isSome_matchAt?_iff hr]
    exact IsHeaded.exists_start_eq_iff
  · rw [functionsOf_scan]
    exact Stretch.names_eq hn hs .function

/-- A receiver hides the next line, a name comes for the second time, and brackets inside brackets are not passed. -/
theorem existsUnique_reportsFunctions_methods :
    let content := "func (r\nfunc g(x\n) f() \x7b\x7d\nfunc f [T any](x T)\nfunc h[S []int](s S)\n"
    (∃! taken, ReportsFunctions content taken) ∧
      Language.go.scan content = [⟨.function, "f", 1⟩, ⟨.function, "f", 4⟩] := by
  intro content
  exact ⟨existsUnique_reportsFunctions (by decide), by decide +kernel⟩

end Recognition.Go

end CodeOutline
