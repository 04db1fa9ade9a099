import CodeOutline.Proofs.Recognition.Arrangement
import CodeOutline.Proofs.Recognition.Python.Grammar

/-! What is recognized in Python is what its grammar describes. -/

namespace CodeOutline

namespace Recognition.Python

open Pattern Text

/-- A keyword, a name and what comes behind the blanks. -/
def namedThen (keyword : String) (tail : Pattern) : Pattern :=
  seq (Pattern.text keyword) (seq gap (seq name (seq indent tail)))

def asyncLead : Pattern := optional (all [Pattern.text "async", gap])

def baseList : Pattern := all [optional parenthesized, indent, Pattern.text ":"]

variable {c d e : Cursor} {text : List Char} {held : List (List Char)}

lemma leads_indent : indent.Leads c d ↔ ∃ text, IsIndent text ∧ c.Reads text d ∧ Clear isTabOrSpace d.rest := leads_run

lemma spans_namedThen {keyword : String} {tail : Pattern} (Tail : List Char → Prop) (hbodies : tail.bodies = [])
    (htail : ∀ c d, Clear isTabOrSpace c.rest → (tail.Leads c d ↔ ∃ more, Tail more ∧ c.Reads more d))
    (hmark : ∀ more rest, Tail more → IsMark (more ++ rest)) : (namedThen keyword tail).Spans c d held ↔
      ∃ named name more, IsNamed keyword named name ∧ Tail more ∧ c.Reads (named ++ more) d ∧ held = [name] := by
  have hseq : (seq indent tail).bodies = [] := hbodies
  have hgap : (atLeastOne isTabOrSpace).bodies = [] := rfl
  have hword : (atLeastOne isAsciiWord).bodies = [] := rfl
  rw [namedThen, spans_seq_of_bodies_eq_nil rfl]
  simp only [gap, name, word, spans_seq_of_bodies_eq_nil hgap, spans_seq_group hword, spans_of_bodies_eq_nil hseq,
    leads_seq, Pattern.text, leads_literal, leads_atLeastOne, leads_indent]
  constructor
  · rintro ⟨e, hkeyword, f, ⟨gap, hgap, hrgap, -⟩, g, name, -, ⟨_, hname, hrname, -⟩, hread, ⟨⟨h, ⟨space, hspace, hrspace,
      hclear⟩, hlead⟩, rfl⟩, rfl⟩
    obtain rfl := hread.mid_unique hrname
    obtain ⟨more, hmore, hrmore⟩ := (htail h d hclear).mp hlead
    exact ⟨_, name, more, ⟨gap, space, hgap, hname, hspace, rfl⟩, hmore,
      (hkeyword.trans (hrgap.trans (hrname.trans hrspace))).trans hrmore, rfl⟩
  · rintro ⟨_, name, more, ⟨gap, space, hgap, hname, hspace, rfl⟩, hmore, hr, rfl⟩
    obtain ⟨h, hr, hrmore⟩ := hr.split
    obtain ⟨e, hkeyword, hr⟩ := hr.split
    obtain ⟨f, hrgap, hr⟩ := hr.split
    obtain ⟨g, hrname, hrspace⟩ := hr.split
    have hend : IsMark h.rest := hrmore.rest_eq ▸ hmark more d.rest hmore
    have hgapped : Clear isTabOrSpace f.rest := hname.clear_of_reads hrname fun _ => isTabOrSpace_of_isAsciiWord
    have hnamed : Clear isAsciiWord g.rest := by
      rw [hrspace.rest_eq]
      exact hspace.clear hend.2
    exact ⟨e, hkeyword, f, ⟨gap, hgap, hrgap, hgapped⟩, g, name, [], ⟨name, hname, hrname, hnamed⟩, hrname,
      ⟨⟨h, ⟨space, hspace, hrspace, hend.1⟩, (htail h d hend.1).mpr ⟨more, hmore, hrmore⟩⟩, rfl⟩, rfl⟩

lemma leads_asyncLead : asyncLead.Leads c d ↔ d = c ∨
    ∃ gap, IsRun isTabOrSpace gap ∧ c.Reads ("async".toList ++ gap) d ∧ Clear isTabOrSpace d.rest := by
  rw [or_comm, asyncLead, leads_optional, Pattern.text, Pattern.gap, leads_literal_atLeastOne]

lemma leads_baseList (hclear : Clear isTabOrSpace c.rest) :
    baseList.Leads c d ↔ ∃ bases, IsBases bases ∧ c.Reads bases d := by
  simp only [baseList, all, parenthesized, Pattern.text, leads_seq, leads_optional, leads_upToFirst, leads_indent,
    leads_literal]
  constructor
  · rintro ⟨e, ⟨inner, hinner, hr⟩ | rfl, f, ⟨space, hspace, hrspace, -⟩, hcolon⟩
    · refine ⟨_, .inr ⟨inner, space, hinner, hspace, rfl⟩, ?_⟩
      simpa using (hr.trans hrspace).trans hcolon
    · -- the blanks in front of the colon were passed already
      obtain ⟨rfl, -⟩ := eq_of_append_eq_of_clear hspace (List.forall_mem_nil _) (hcolon.rest_eq ▸ rfl) hclear
        (hrspace.rest_eq.symm.trans (List.nil_append _).symm)
      exact ⟨_, .inl rfl, hrspace.trans hcolon⟩
  · rintro ⟨_, rfl | ⟨inner, space, hinner, hspace, rfl⟩, hr⟩
    · exact ⟨c, .inr rfl, c, ⟨[], List.forall_mem_nil _, .refl, hclear⟩, hr⟩
    · have hparts : '(' :: (inner ++ ')' :: (space ++ [':'])) = ('(' :: inner ++ [')']) ++ (space ++ [':']) := by simp
      obtain ⟨e, hr, hrest⟩ := (hparts ▸ hr).split
      obtain ⟨f, hrspace, hcolon⟩ := hrest.split
      exact ⟨e, .inl ⟨inner, hinner, hr⟩, f, ⟨space, hspace, hrspace, hcolon.rest_eq ▸ rfl⟩, hcolon⟩

lemma readsHeads_functionPattern : ReadsHeads functionPattern (Naming IsFunctionHead) := by
  intro c d held
  have hseq : functionPattern = seq lineStart (seq indent (seq asyncLead (namedThen "def" (Pattern.text "(")))) := rfl
  have htail (c d : Cursor) (_ : Clear isTabOrSpace c.rest) :
      (Pattern.text "(").Leads c d ↔ ∃ more, more = ['('] ∧ c.Reads more d := by
    simp [Pattern.text, leads_literal]
  rw [hseq, spans_seq_of_bodies_eq_nil rfl]
  simp only [leads_lineStart, spans_seq_of_bodies_eq_nil (show indent.bodies = [] from rfl),
    spans_seq_of_bodies_eq_nil (show asyncLead.bodies = [] from rfl), leads_indent, leads_asyncLead,
    spans_namedThen (· = ['(']) rfl htail fun _ rest h => h ▸ isMark_parenthesis rest]
  constructor
  · rintro ⟨_, ⟨rfl, hc⟩, e, ⟨indent, hindent, hrindent, -⟩, f, hlead, named, name, _, hnamed, rfl, hr, rfl⟩
    refine ⟨hc, ?_⟩
    rcases hlead with rfl | ⟨gap, hgap, hrlead, -⟩
    · exact ⟨_, hrindent.trans hr, name, ⟨indent, [], named, hindent, .inl rfl, hnamed, rfl⟩, rfl⟩
    · exact ⟨_, hrindent.trans (hrlead.trans hr), name,
        ⟨indent, _, named, hindent, .inr ⟨gap, hgap, rfl⟩, hnamed, rfl⟩, rfl⟩
  · rintro ⟨hc, _, hr, name, ⟨indent, lead, named, hindent, hlead, hnamed, rfl⟩, rfl⟩
    obtain ⟨e, hrindent, hled⟩ := hr.split
    obtain ⟨f, hrlead, hrnamed⟩ := hled.split
    have hclear : Clear isTabOrSpace e.rest := by
      rw [hrlead.rest_eq, hrnamed.rest_eq, List.append_assoc]
      exact hlead.clear hnamed
    refine ⟨c, ⟨rfl, hc⟩, e, ⟨indent, hindent, hrindent, hclear⟩, f, ?_, named, name, _, hnamed, rfl, hrnamed, rfl⟩
    rcases hlead with rfl | ⟨gap, hgap, rfl⟩
    · cases hrlead
      exact .inl rfl
    · refine .inr ⟨gap, hgap, hrlead, ?_⟩
      rw [hrnamed.rest_eq, List.append_assoc]
      exact hnamed.clear rfl (by decide)

lemma readsHeads_classPattern : ReadsHeads classPattern (Naming IsClassHead) := by
  intro c d held
  have hseq : classPattern = seq lineStart (seq indent (namedThen "class" baseList)) := rfl
  rw [hseq, spans_seq_of_bodies_eq_nil rfl]
  simp only [leads_lineStart, spans_seq_of_bodies_eq_nil (show indent.bodies = [] from rfl), leads_indent,
    spans_namedThen IsBases rfl (fun _ _ => leads_baseList) fun _ _ => IsBases.isMark]
  constructor
  · rintro ⟨_, ⟨rfl, hc⟩, e, ⟨indent, hindent, hrindent, -⟩, named, name, bases, hnamed, hbases, hr, rfl⟩
    exact ⟨hc, _, hrindent.trans hr, name, ⟨indent, named, bases, hindent, hnamed, hbases, rfl⟩, rfl⟩
  · rintro ⟨hc, _, hr, name, ⟨indent, named, bases, hindent, hnamed, hbases, rfl⟩, rfl⟩
    obtain ⟨e, hrindent, hr⟩ := hr.split
    have hclear : Clear isTabOrSpace e.rest := by
      rw [hr.rest_eq, List.append_assoc]
      exact hnamed.clear rfl (by decide)
    exact ⟨c, ⟨rfl, hc⟩, e, ⟨indent, hindent, hrindent, hclear⟩, named, name, bases, hnamed, hbases, hr, rfl⟩

variable {content : String} {classes : List Stretch}

def functionLines (content : String) : List (String × Nat) :=
  (functionsOf (Language.python.scan content)).map fun e => (e.name, e.line.toNat)

/-- What is recognized in a text: all functions and behind them all classes, the name and the line of each. -/
structure Recognizes (content : String) (classes : List Stretch) : Prop where
  scan_eq : (Language.python.scan content).map (fun e => (e.kind, e.name, e.line.toNat)) =
    (functionLines content).map (fun f => (.function, f)) ++
      classes.map fun s => (.classDecl, s.name, s.lineIn content.toList)
  functions : Lists (BeginsWith IsFunctionHead) content.toList (functionLines content)
  functions_append : ∀ a b, content = a ++ "\n" ++ b → functionLines content =
    functionLines a ++ (functionLines b).map fun f => (f.1, f.2 + (a.toList.count '\n' + 1))
  classes_inTurn : Stretch.InTurn (IsHeaded (Naming IsClassHead) content.toList) 0 classes

lemma functionsOf_scan (content : String) :
    functionsOf (Language.python.scan content) = (Source.ofText content.toList).elements .function functionPattern :=
  blockOf_scan_of_every (by decide) rfl content

lemma lists_functionLines (hn : content.toList.count '\n' < 2 ^ 32 - 1) :
    Lists (BeginsWith IsFunctionHead) content.toList (functionLines content) := by
  obtain ⟨taken, hturn, hs⟩ := Stretch.exists_inTurn (p := functionPattern) rfl
    (describe_isHeaded readsHeads_functionPattern settles_isFunctionHead content.toList)
  rw [functionLines, functionsOf_scan, Stretch.names_eq hn hs]
  exact lists_of_inTurn settles_isFunctionHead (fun _ _ => IsFunctionHead.newline_notMem) hturn

lemma functionLines_append {a b : String} (hn : (a ++ "\n" ++ b).toList.count '\n' < 2 ^ 32 - 1) :
    functionLines (a ++ "\n" ++ b) =
      functionLines a ++ (functionLines b).map fun f => (f.1, f.2 + (a.toList.count '\n' + 1)) := by
  have htext : (a ++ "\n" ++ b).toList = a.toList ++ '\n' :: b.toList := by simp
  have hcount := hn
  rw [htext, List.count_append, List.count_cons_self] at hcount
  refine (lists_functionLines hn).unique ?_
  rw [htext]
  exact (lists_functionLines (by omega)).append (lists_functionLines (by omega))

theorem existsUnique_recognizes (hn : content.toList.count '\n' < 2 ^ 32 - 1) :
    ∃! classes, Recognizes content classes := by
  obtain ⟨classes, hturn, hs⟩ := Stretch.exists_inTurn (p := classPattern) rfl
    (describe_isHeaded readsHeads_classPattern settles_isClassHead content.toList)
  refine ⟨classes, ?_, fun other hother => ?_⟩
  · constructor
    case scan_eq =>
      have hscan : Language.python.scan content = functionsOf (Language.python.scan content) ++
          (Source.ofText content.toList).elements .classDecl classPattern :=
        congrArg (· ++ _) (functionsOf_scan content).symm
      rw [hscan, List.map_append, Stretch.elements_eq hn hs, functionLines, List.map_map]
      congr 1
      refine List.map_congr_left fun e he => ?_
      rw [Function.comp_apply, of_decide_eq_true (List.mem_filter.mp he).2]
    case functions => exact lists_functionLines hn
    case functions_append =>
      rintro a b rfl
      exact functionLines_append hn
    case classes_inTurn => exact hturn
  · exact hother.classes_inTurn.unique (fun _ _ => IsHeaded.eq_of_start_eq settles_isClassHead) hturn

/-- The bases of a class hide a class, those of another lack the colon, and two functions have one name. -/
theorem existsUnique_recognizes_lines :
    let content := "class A(\nclass B:\n):\n  async def f(x):\nclass B:\ndef f():\nclass A (object)\nclass A (object) :"
    (∃! classes, Recognizes content classes) ∧ Language.python.scan content =
      [⟨.function, "f", 4⟩, ⟨.function, "f", 6⟩, ⟨.classDecl, "A", 1⟩, ⟨.classDecl, "B", 5⟩, ⟨.classDecl, "A", 8⟩] := by
  intro content
  exact ⟨existsUnique_recognizes (by decide), by decide +kernel⟩

end Recognition.Python

end CodeOutline
