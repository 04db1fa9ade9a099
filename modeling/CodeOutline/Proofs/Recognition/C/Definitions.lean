import CodeOutline.Proofs.Recognition.C.Grammar
import CodeOutline.Proofs.Recognition.Names

/-! The functions that are recognized in C and C++ are the definitions of the grammar. -/

namespace CodeOutline

namespace Recognition.C

open Pattern Text

/-! The parts of the pattern, each led through by what the grammar says of it. -/

def typePart : Pattern := all [atLeastOne isTypeChar, gap]

def qualifier : Pattern := all [word, Pattern.text "::"]

def bodyStart : Pattern :=
  all [blanks, parenthesized, blanks, optional (all [Pattern.text "const", blanks]), Pattern.text "\x7b"]

variable {c d : Cursor} {m : Match} {text before name lead head after rest : List Char}

lemma mem_functionPattern : m ∈ functionPattern.matchesAt c ↔ c.before = '\n' ∧
    ∃ parts stars a b, (oneOrMore typePart).Leads c parts ∧ (run (· == '*')).Leads parts stars ∧
      (star qualifier).Leads stars a ∧ markedWord.Leads a b ∧ bodyStart.Leads b m.stop ∧ m.groups = [(a, b)] := by
  have hseq : functionPattern = seq lineStart (seq (oneOrMore typePart) (seq (run (· == '*')) (seq (star qualifier)
    (seq (group markedWord) bodyStart)))) := rfl
  rw [hseq, mem_seq_of_bodies_eq_nil rfl]
  simp only [leads_lineStart, mem_seq_of_bodies_eq_nil (show (oneOrMore typePart).bodies = [] from rfl),
    mem_seq_of_bodies_eq_nil (show (run (· == '*')).bodies = [] from rfl),
    mem_seq_of_bodies_eq_nil (show (star qualifier).bodies = [] from rfl),
    mem_seq_group (show markedWord.bodies = [] from rfl) (show bodyStart.bodies = [] from rfl)]
  constructor
  · rintro ⟨_, ⟨rfl, hc⟩, parts, hparts, stars, hstars, a, ha, b, hb, hbody, hgroups⟩
    exact ⟨hc, parts, stars, a, b, hparts, hstars, ha, hb, hbody, hgroups⟩
  · rintro ⟨hc, parts, stars, a, b, hparts, hstars, ha, hb, hbody, hgroups⟩
    exact ⟨c, ⟨rfl, hc⟩, parts, hparts, stars, hstars, a, ha, b, hb, hbody, hgroups⟩

lemma leads_typePart : typePart.Leads c d ↔
    ∃ part, IsTypePart part ∧ c.Reads part d ∧ Clear isTabOrSpace d.rest := by
  have hparts : typePart = all [atLeastOne isTypeChar, atLeastOne isTabOrSpace] := rfl
  rw [hparts, leads_atLeastOne_atLeastOne fun _ => isTypeChar_of_isTabOrSpace]
  constructor
  · rintro ⟨letters, gap, hletters, hgap, hr, hclear⟩
    exact ⟨_, ⟨letters, gap, hletters, hgap, rfl⟩, hr, hclear⟩
  · rintro ⟨_, ⟨letters, gap, hletters, hgap, rfl⟩, hr, hclear⟩
    exact ⟨letters, gap, hletters, hgap, hr, hclear⟩

lemma leads_qualifier : qualifier.Leads c d ↔ ∃ part, IsQualifier part ∧ c.Reads part d := by
  simp only [qualifier, all, word, Pattern.text, leads_seq, leads_atLeastOne, leads_literal]
  constructor
  · rintro ⟨e, ⟨word, hword, hr, -⟩, hr'⟩
    exact ⟨word ++ [':', ':'], ⟨word, hword, rfl⟩, hr.trans hr'⟩
  · rintro ⟨_, ⟨word, hword, rfl⟩, hr⟩
    obtain ⟨e, hr, hr'⟩ := hr.split
    refine ⟨e, ⟨word, hword, hr, ?_⟩, hr'⟩
    rw [hr'.rest_eq]
    exact (by decide : isAsciiWord ':' = false)

lemma leads_markedWord : markedWord.Leads c d ↔ ∃ name, IsName name ∧ c.Reads name d ∧ Clear isAsciiWord d.rest := by
  simp only [markedWord, word, Pattern.text, leads_seq, leads_atLeastOne, leads_optional, leads_literal]
  constructor
  · rintro ⟨e, hr | rfl, word, hword, hr', hclear⟩
    · exact ⟨'~' :: word, ⟨word, hword, .inr rfl⟩, hr.trans hr', hclear⟩
    · exact ⟨word, ⟨word, hword, .inl rfl⟩, hr', hclear⟩
  · rintro ⟨_, ⟨word, hword, rfl | rfl⟩, hr, hclear⟩
    · exact ⟨c, .inr rfl, _, hword, hr, hclear⟩
    · obtain ⟨e, hr, hr'⟩ := hr.split_head
      exact ⟨e, .inl hr, word, hword, hr', hclear⟩

variable {parts stars : Cursor}

lemma exists_lead (hparts : (oneOrMore typePart).Leads c parts) (hstars : (run (· == '*')).Leads parts stars)
    (hd : (star qualifier).Leads stars d) : ∃ lead, IsLead lead ∧ c.Reads lead d := by
  obtain ⟨e, hfirst, hmore⟩ := leads_seq.mp hparts
  obtain ⟨first, hfirst, hrfirst, -⟩ := leads_typePart.mp hfirst
  have hpart : ∀ c d, typePart.Leads c d → ∃ part, IsTypePart part ∧ c.Reads part d :=
    fun _ _ h => (leads_typePart.mp h).imp fun _ h => ⟨h.1, h.2.1⟩
  obtain ⟨more, hmore, hrmore⟩ := Repeats.of_reflTransGen hpart ((leads_star rfl).mp hmore)
  obtain ⟨row, hrow, hrrow, -⟩ := leads_run.mp hstars
  obtain ⟨qualifiers, hqualifiers, hrqualifiers⟩ := Repeats.of_reflTransGen (fun _ _ => leads_qualifier.mp)
    ((leads_star rfl).mp hd)
  exact ⟨_, ⟨first, more, row, qualifiers, hfirst, hmore, fun x hx => beq_iff_eq.mp (hrow x hx), hqualifiers, rfl⟩,
    (hrfirst.trans hrmore).trans (hrrow.trans hrqualifiers)⟩

/-- A lead can be passed where a name follows. -/
lemma leads_of_isLead (hlead : IsLead lead) (hname : IsName name) (hr : c.Reads lead d) (hd : d.rest = name ++ rest) :
    ∃ parts stars, (oneOrMore typePart).Leads c parts ∧ (run (· == '*')).Leads parts stars ∧
      (star qualifier).Leads stars d := by
  obtain ⟨first, more, row, qualifiers, hfirst, hmore, hrow, hqualifiers, rfl⟩ := hlead
  obtain ⟨parts, hparts, hr⟩ := hr.split
  obtain ⟨e, hfirst', hmore'⟩ := hparts.split
  obtain ⟨stars, hstars, hr⟩ := hr.split
  -- every run on the way is taken as far as it goes, so each has to end where the next part begins
  have hclear {set : Char → Bool} (hset : ∀ x, isNameChar x = true → set x = false) (hcolon : set ':' = false) :
      Clear set stars.rest := by
    rw [hr.rest_eq, hd]
    refine (hname.isRun.clear hset).append fun x hx => ?_
    rcases hqualifiers.forall_mem (fun _ => IsQualifier.forall_mem) x hx with hx | rfl
    · exact hset x hx
    · exact hcolon
  have hgap : Clear isTabOrSpace parts.rest := by
    rw [hstars.rest_eq]
    refine (hclear (fun x hx => isTabOrSpace_of_isTypeChar (isTypeChar_of_isNameChar hx)) rfl).append fun x hx => ?_
    rw [hrow x hx]
    rfl
  have hbegins : ∀ part rest, IsTypePart part → Clear isTabOrSpace (part ++ rest) := by
    rintro _ rest ⟨letters, gap, hletters, _, rfl⟩
    rw [List.append_assoc]
    exact hletters.clear fun _ => isTabOrSpace_of_isTypeChar
  refine ⟨parts, stars, leads_seq.mpr ⟨e, leads_typePart.mpr ⟨first, hfirst, hfirst', ?_⟩, ?_⟩, ?_, ?_⟩
  · rw [hmore'.rest_eq]
    exact hmore.ends_append hbegins hgap
  · exact (leads_star rfl).mpr (hmore.reflTransGen (fun c d part hpart hr hd => leads_typePart.mpr ⟨part, hpart, hr, hd⟩)
      hbegins hmore' hgap)
  · exact leads_run.mpr ⟨row, fun x hx => beq_iff_eq.mpr (hrow x hx), hstars,
      hclear (fun x hx => beq_eq_false_iff_ne.mpr (ne_of_isNameChar (by decide) hx)) rfl⟩
  · exact (leads_star rfl).mpr (hqualifiers.reflTransGen (E := fun _ => True)
      (fun c d part hpart hr _ => leads_qualifier.mpr ⟨part, hpart, hr⟩) (fun _ _ _ => trivial) hr trivial)

lemma leads_blanks : blanks.Leads c d ↔ d = c.pass isBlank := leads_run_iff_eq_pass

lemma rest_pass_blank (c : Cursor) : (c.pass isBlank).rest = trimLeft c.rest := c.pass_rest isBlank

/-- The start of a body, from behind the name. -/
lemma exists_leads_bodyStart_iff : (∃ d, bodyStart.Leads c d ∧ d.rest = rest) ↔
    ∃ arguments behind, trimLeft c.rest = '(' :: (arguments ++ ')' :: behind) ∧ ')' ∉ arguments ∧
      OpensBody behind rest := by
  simp only [bodyStart, all, parenthesized, Pattern.text, leads_seq, leads_blanks, leads_upToFirst, leads_optional,
    leads_literal, exists_eq_left]
  constructor
  · rintro ⟨d, ⟨e, ⟨arguments, hnot, hr⟩, f, hconst, hbrace⟩, rfl⟩
    have hrest := hr.rest_eq
    rw [rest_pass_blank] at hrest
    refine ⟨arguments, e.rest, by simpa using hrest, hnot, ?_⟩
    rcases hconst with ⟨g, hg, rfl⟩ | rfl
    · refine .inr ⟨g.rest, ?_, ?_⟩
      · rw [← rest_pass_blank, hg.rest_eq]
      · rw [← rest_pass_blank, hbrace.rest_eq]
        rfl
    · rw [OpensBody, ← rest_pass_blank, hbrace.rest_eq]
      exact .inl rfl
  · rintro ⟨arguments, behind, hc, hnot, hbody⟩
    obtain ⟨e, hr, hbehind⟩ := (c.pass isBlank).exists_reads ('(' :: arguments ++ [')']) behind
      (by rw [rest_pass_blank, hc]; simp)
    rw [← hbehind] at hbody
    rcases hbody with hbrace | ⟨more, hconst, hbrace⟩
    · obtain ⟨d, hd, hrest⟩ := (e.pass isBlank).exists_reads ['{'] rest (by rw [rest_pass_blank, hbrace]; rfl)
      exact ⟨d, ⟨e, ⟨arguments, hnot, hr⟩, _, .inr rfl, hd⟩, hrest⟩
    · obtain ⟨g, hg, hmore⟩ := (e.pass isBlank).exists_reads "const".toList more (by rw [rest_pass_blank, hconst])
      rw [← hmore] at hbrace
      obtain ⟨d, hd, hrest⟩ := (g.pass isBlank).exists_reads ['{'] rest (by rw [rest_pass_blank, hbrace]; rfl)
      exact ⟨d, ⟨e, ⟨arguments, hnot, hr⟩, _, .inl ⟨g, hg, rfl⟩, hd⟩, hrest⟩

lemma isBlank_of_isNameChar {x : Char} (h : isNameChar x = true) : isBlank x = false := by
  rcases Bool.or_eq_true _ _ |>.mp h with hword | hmark
  · exact isBlank_of_isAsciiWord hword
  · rw [beq_iff_eq.mp hmark]
    decide

lemma IsName.trimRight_append (h : IsName name) (lead : List Char) : trimRight (lead ++ name) = lead ++ name := by
  have hlast : name = name.dropLast ++ [name.getLast h.isRun.1] := (List.dropLast_append_getLast _).symm
  rw [hlast, ← List.append_assoc]
  exact trimRight_of_not_blank (isBlank_of_isNameChar (h.isRun.2 _ (List.getLast_mem _))) _

lemma notMem_of_heading {blanks : List Char} (hlead : IsLead lead) (hname : IsName name)
    (hblanks : ∀ x ∈ blanks, isBlank x = true) : '(' ∉ lead ++ name ++ blanks := by
  simp only [List.mem_append, not_or]
  refine ⟨⟨fun h => ?_, fun h => ?_⟩, fun h => ?_⟩
  · exact absurd (hlead.forall_mem _ h) (by decide)
  · exact absurd (hname.isRun.2 _ h) (by decide)
  · exact absurd (hblanks _ h) (by decide)

lemma exists_match_iff : (∃ m ∈ functionPattern.matchesAt c, m.groupTexts = [name] ∧ m.stop.rest = rest) ↔
    c.before = '\n' ∧ ∃ head arguments behind, c.rest = head ++ '(' :: (arguments ++ ')' :: behind) ∧ '(' ∉ head ∧
      ')' ∉ arguments ∧ IsHeading (trimRight head) name ∧ OpensBody behind rest := by
  constructor
  · rintro ⟨m, hm, hgroups, rfl⟩
    obtain ⟨hc, parts, stars, a, b, hparts, hstars, ha, hb, hbody, hm⟩ := mem_functionPattern.mp hm
    obtain ⟨lead, hlead, hrlead⟩ := exists_lead hparts hstars ha
    obtain ⟨name', hname, hrname, -⟩ := leads_markedWord.mp hb
    obtain ⟨arguments, behind, hrest, hnot, hopens⟩ := exists_leads_bodyStart_iff.mp ⟨m.stop, hbody, rfl⟩
    obtain rfl : name' = name := by simpa [Match.groupTexts, hm, hrname.textTo_eq] using hgroups
    have hblanks : ∀ x ∈ b.rest.takeWhile isBlank, isBlank x = true :=
      fun x hx => List.all_eq_true.mp List.all_takeWhile x hx
    refine ⟨hc, lead ++ name' ++ b.rest.takeWhile isBlank, arguments, behind, ?_, notMem_of_heading hlead hname hblanks,
      hnot, ⟨lead, hlead, hname, ?_⟩, hopens⟩
    · rw [← hrest, List.append_assoc, trimLeft, List.takeWhile_append_dropWhile]
      exact (hrlead.trans hrname).rest_eq
    · rw [trimRight_append hblanks, hname.trimRight_append]
  · rintro ⟨hc, head, arguments, behind, hrest, -, hnot, ⟨lead, hlead, hname, hheading⟩, hopens⟩
    -- the head is a lead, a name and the blanks that were trimmed
    obtain ⟨blanks, hhead, hblanks⟩ := exists_eq_trimRight_append head
    rw [hhead, hheading, List.append_assoc, List.append_assoc] at hrest
    obtain ⟨a, hra, ha⟩ := c.exists_reads lead _ hrest
    obtain ⟨b, hrb, hb⟩ := a.exists_reads name _ ha
    obtain ⟨parts, stars, hparts, hstars, hquals⟩ := leads_of_isLead hlead hname hra ha
    have hclear : Clear isAsciiWord b.rest := by
      rw [hb]
      exact IsBlanks.clear hblanks (clear_cons.mpr (by decide))
    have hopen : trimLeft b.rest = '(' :: (arguments ++ ')' :: behind) := by
      rw [hb, trimLeft_append hblanks, trimLeft_cons_of_not_blank (by decide)]
    obtain ⟨d, hd, rfl⟩ := exists_leads_bodyStart_iff.mpr ⟨arguments, behind, hopen, hnot, hopens⟩
    refine ⟨⟨[(a, b)], d⟩, mem_functionPattern.mpr ⟨hc, parts, stars, a, b, hparts, hstars, hquals,
      leads_markedWord.mpr ⟨name, hname, hrb, hclear⟩, hd, rfl⟩, ?_, rfl⟩
    simp [Match.groupTexts, hrb.textTo_eq]

/-- The matches of the pattern are the definitions. -/
theorem describe_isDefinition (text : List Char) : Stretch.Describe functionPattern text (IsDefinition text) := by
  intro s
  constructor
  · intro hs
    obtain @⟨start, head, arguments, behind, rest, name, hline, hdivides, hheading, hbody⟩ := hs
    have hle : start ≤ text.length := by
      have hlong := congrArg List.length hdivides.drop_eq
      rw [List.length_drop, List.length_append, List.length_cons] at hlong
      omega
    obtain ⟨c, hr, hc, hstart⟩ := exists_reads_take hle
    obtain ⟨m, hm, hgroups, hrest⟩ := exists_match_iff.mpr ⟨(isLineStart_iff hr).mpr (hstart.symm ▸ hline), head,
      arguments, behind, hc.trans hdivides.drop_eq, hdivides.notMem_head, hdivides.notMem_arguments, hheading, hbody⟩
    refine ⟨_, c, m, hr, hm, ?_⟩
    rw [Stretch.ofHit, index_of_reads hr, hstart, index_stop_of_mem hr hm, hgroups, hrest]
  · rintro ⟨before, c, m, hr, hm, rfl⟩
    obtain ⟨name, hname⟩ : ∃ name, m.groupTexts = [name] := by
      obtain ⟨-, -, -, a, b, -, -, -, -, -, hgroups⟩ := mem_functionPattern.mp hm
      exact ⟨a.textTo b, by rw [Match.groupTexts, hgroups]; rfl⟩
    obtain ⟨hc, head, arguments, behind, hrest, hhead, harguments, hheading, hbody⟩ :=
      exists_match_iff.mp ⟨m, hm, hname, rfl⟩
    rw [Stretch.ofHit, index_of_reads hr, index_stop_of_mem hr hm, hname]
    exact .intro ((isLineStart_iff hr).mp hc) ⟨(drop_length hr).trans hrest, hhead, harguments⟩ hheading hbody

variable {content : String} {taken : List Stretch}

/-- What the functions of a text are: the definitions in it, each the leftmost one behind the one before, without those
that have a reserved name or a name that came before. -/
structure Defines (content : String) (taken : List Stretch) : Prop where
  starts_iff : ∀ before c, (Cursor.start content.toList).Reads before c →
    ((functionPattern.matchAt? c).isSome ↔ ∃ s, IsDefinition content.toList s ∧ s.start = before.length)
  eq_of_start_eq : ∀ s t, IsDefinition content.toList s → IsDefinition content.toList t → s.start = t.start → s = t
  inTurn : Stretch.InTurn (IsDefinition content.toList) 0 taken
  not_isPrototype : ∀ s ∈ taken, ¬ IsPrototype content.toList s.start
  functions_eq : (functionsOf (Language.c.scan content)).map (fun e => (e.name, e.line.toNat)) =
    ((taken.filter (·.name ∉ reserved)).eraseDupsBy (·.name == ·.name)).map fun s => (s.name, s.lineIn content.toList)

theorem existsUnique_defines (hn : content.toList.count '\n' < 2 ^ 32 - 1) : ∃! taken, Defines content taken := by
  obtain ⟨taken, hturn, hs⟩ := Stretch.exists_inTurn (p := functionPattern) rfl (describe_isDefinition content.toList)
  have hfunctions := NameFilter.functions_eq_of_sightings (rfl : Language.c.nameFilter? = _) hn hs
  refine ⟨taken, ⟨?_, fun s t => IsDefinition.eq_of_start_eq, hturn, ?_, hfunctions⟩, ?_⟩
  · exact fun before c => (describe_isDefinition content.toList).isSome_matchAt?_iff
  · exact fun s hmem => (hturn.fits s hmem).not_isPrototype
  · exact fun other hother => hother.inTurn.unique (fun s t => IsDefinition.eq_of_start_eq) hturn

/-- A prototype, a qualified method, a definition that reaches over the line of the next one, and that one again. -/
theorem existsUnique_defines_methods :
    let content := "int add(int a);\nchar *W::name() const \x7b\n\x7d\nvoid name(\nint g(int b) \x7b\n\x7d\nint g() \x7b\x7d\n"
    (∃! taken, Defines content taken) ∧
      functionsOf (Language.c.scan content) = [⟨.function, "name", 2⟩, ⟨.function, "g", 7⟩] := by
  intro content
  exact ⟨existsUnique_defines (by decide), by decide +kernel⟩

end Recognition.C

end CodeOutline
