import CodeOutline.Proofs.Pattern.Spans
import CodeOutline.Proofs.Recognition.Lines
import Mathlib.Data.List.Sort

/-! Stretches that are told by how the text goes on from their place, and those of them that begin at the start of a
line. -/

namespace CodeOutline

open Pattern

/-- From its place on the text is a head and a rest, and the head holds texts. -/
inductive Occurs (IsHead : List Char → List Char → List (List Char) → Prop) (text : List Char) : Stretch → Prop
  | intro {start head rest held} : text.drop start = head ++ rest → IsHead head rest held →
      Occurs IsHead text ⟨start, start + head.length, held⟩

/-- From the start of a line on the text is a head and a rest, and the head holds texts. -/
inductive IsHeaded (IsHead : List Char → List Char → List (List Char) → Prop) (text : List Char) : Stretch → Prop
  | intro {start head rest held} : IsLineStart text start → text.drop start = head ++ rest → IsHead head rest held →
      IsHeaded IsHead text ⟨start, start + head.length, held⟩

/-- A text does not begin with two heads. -/
structure Settles (IsHead : List Char → List Char → List (List Char) → Prop) : Prop where
  ne_nil : ∀ {head rest held}, IsHead head rest held → head ≠ []
  unique : ∀ {head rest held head' rest' held'}, IsHead head rest held → IsHead head' rest' held' →
    head ++ rest = head' ++ rest' → head = head' ∧ held = held'

/-- The matches of the pattern read the heads at the starts of lines. -/
def ReadsHeads (p : Pattern) (IsHead : List Char → List Char → List (List Char) → Prop) : Prop :=
  ∀ c d held, p.Spans c d held ↔ c.before = '\n' ∧ ∃ head, c.Reads head d ∧ IsHead head d.rest held

/-- The matches of the pattern read the heads, wherever they stand. -/
def ReadsAnywhere (p : Pattern) (IsHead : List Char → List Char → List (List Char) → Prop) : Prop :=
  ∀ c d held, p.Spans c d held ↔ ∃ head, c.Reads head d ∧ IsHead head d.rest held

/-- A head that holds a name only, however the text goes on. -/
def Naming (IsHead : List Char → List Char → Prop) (head _rest : List Char) (held : List (List Char)) : Prop :=
  ∃ name, IsHead head name ∧ held = [name]

section Heads

variable {IsHead : List Char → List Char → List (List Char) → Prop} {p : Pattern} {text : List Char} {place : Nat}
  {s t : Stretch} {taken : List Stretch}

namespace Occurs

lemma start_lt_stop (hne : ∀ {head rest held}, IsHead head rest held → head ≠ []) (hs : Occurs IsHead text s) :
    s.start < s.stop := by
  obtain ⟨_, hhead⟩ := hs
  exact Nat.lt_add_of_pos_right (List.length_pos_iff.mpr (hne hhead))

lemma start_le (hne : ∀ {head rest held}, IsHead head rest held → head ≠ []) (hs : Occurs IsHead text s) :
    s.start ≤ text.length := by
  obtain @⟨start, head, rest, held, hdrop, hhead⟩ := hs
  change start ≤ text.length
  have hlength := congrArg List.length hdrop
  have hpos := List.length_pos_iff.mpr (hne hhead)
  rw [List.length_drop, List.length_append] at hlength
  omega

lemma eq_of_start_eq (hsettles : Settles IsHead) (hs : Occurs IsHead text s) (ht : Occurs IsHead text t)
    (hstart : s.start = t.start) : s = t := by
  obtain ⟨hdrop, hhead⟩ := hs
  obtain ⟨hdrop', hhead'⟩ := ht
  obtain rfl := hstart
  obtain ⟨rfl, rfl⟩ := hsettles.unique hhead hhead' (hdrop.symm.trans hdrop')
  rfl

end Occurs

lemma isHeaded_iff : IsHeaded IsHead text s ↔ IsLineStart text s.start ∧ Occurs IsHead text s := by
  constructor
  · rintro ⟨hline, hdrop, hhead⟩
    exact ⟨hline, .intro hdrop hhead⟩
  · rintro ⟨hline, hdrop, hhead⟩
    exact .intro hline hdrop hhead

/-- The condition on the place may be told from the cursor or from the number of the characters before it. -/
lemma describe_of_reads {P : Cursor → Prop} {Q : Nat → Prop}
    (hp : ∀ c d held, p.Spans c d held ↔ P c ∧ ∃ head, c.Reads head d ∧ IsHead head d.rest held)
    (hat : ∀ before c, (Cursor.start text).Reads before c → (P c ↔ Q before.length))
    (hne : ∀ {head rest held}, IsHead head rest held → head ≠ []) :
    Stretch.Describe p text fun s => Q s.start ∧ Occurs IsHead text s := by
  intro s
  constructor
  · rintro ⟨hhere, hs⟩
    obtain ⟨c, hr, hc, hlength⟩ := exists_reads_take (hs.start_le hne)
    obtain @⟨start, head, rest, held, hdrop, hhead⟩ := hs
    obtain ⟨d, hrd, rfl⟩ := c.exists_reads head rest (hc.trans hdrop)
    obtain ⟨m, hm, rfl, hgroups⟩ := (hp c d held).mpr ⟨(hat _ _ hr).mpr (hlength.symm ▸ hhere), head, hrd, hhead⟩
    refine ⟨_, c, m, hr, hm, ?_⟩
    rw [Stretch.ofHit, hrd.index_eq, index_of_reads hr, hlength, hgroups]
  · rintro ⟨before, c, m, hr, hm, rfl⟩
    obtain ⟨hc, head, hrd, hhead⟩ := (hp c m.stop m.groupTexts).mp ⟨m, hm, rfl, rfl⟩
    rw [Stretch.ofHit, hrd.index_eq, index_of_reads hr]
    exact ⟨(hat _ _ hr).mp hc, .intro ((drop_length hr).trans hrd.rest_eq) hhead⟩

lemma describe_isHeaded (hp : ReadsHeads p IsHead) (hsettles : Settles IsHead) (text : List Char) :
    Stretch.Describe p text (IsHeaded IsHead text) := by
  intro s
  rw [isHeaded_iff]
  exact describe_of_reads hp (fun _ _ hr => isLineStart_iff hr) hsettles.ne_nil s

lemma describe_occurs (hp : ReadsAnywhere p IsHead) (hne : ∀ {head rest held}, IsHead head rest held → head ≠ [])
    (text : List Char) : Stretch.Describe p text (Occurs IsHead text) := by
  intro s
  rw [← true_and (Occurs IsHead text s)]
  exact describe_of_reads (P := fun _ => True) (Q := fun _ => True)
    (fun c d held => (hp c d held).trans (iff_of_eq (true_and _)).symm) (fun _ _ _ => Iff.rfl) hne s

namespace IsHeaded

lemma isLineStart (hs : IsHeaded IsHead text s) : IsLineStart text s.start := (isHeaded_iff.mp hs).1

lemma occurs (hs : IsHeaded IsHead text s) : Occurs IsHead text s := (isHeaded_iff.mp hs).2

lemma start_lt_stop (hsettles : Settles IsHead) (hs : IsHeaded IsHead text s) : s.start < s.stop :=
  hs.occurs.start_lt_stop hsettles.ne_nil

lemma eq_of_start_eq (hsettles : Settles IsHead) (hs : IsHeaded IsHead text s) (ht : IsHeaded IsHead text t)
    (hstart : s.start = t.start) : s = t := hs.occurs.eq_of_start_eq hsettles ht.occurs hstart

lemma exists_start_eq_iff {IsHead : List Char → List Char → Prop} :
    (∃ s, IsHeaded (Naming IsHead) text s ∧ s.start = place) ↔
      IsLineStart text place ∧ ∃ head name, IsHead head name ∧ head <+: text.drop place := by
  constructor
  · rintro ⟨_, ⟨hline, hdrop, name, hhead, -⟩, rfl⟩
    exact ⟨hline, _, name, hhead, _, hdrop.symm⟩
  · rintro ⟨hline, head, name, hhead, rest, hdrop⟩
    exact ⟨_, .intro hline hdrop.symm ⟨name, hhead, rfl⟩, rfl⟩

/-- A head without a newline does not reach into another line. -/
lemma eq_of_inside (hsettles : Settles IsHead) (hnewline : '\n' ∉ (text.drop s.start).take (s.stop - s.start))
    (hs : IsHeaded IsHead text s) (ht : IsHeaded IsHead text t) (hle : s.start ≤ t.start) (hinside : t.start < s.stop) :
    s = t := by
  rcases hle.eq_or_lt with hstart | hlt
  · exact hs.eq_of_start_eq hsettles ht hstart
  · have hmem := newline_mem_of_isLineStart ht.isLineStart hlt
    exact absurd ((List.take_sublist_take_left (by omega)).subset hmem) hnewline

end IsHeaded

lemma lines_increase (hsettles : Settles IsHead) (h : Stretch.InTurn (IsHeaded IsHead text) place taken) :
    taken.Pairwise fun s later => s.lineIn text < later.lineIn text := by
  refine (h.pairwise fun _ => IsHeaded.start_lt_stop hsettles).imp_of_mem fun {s later} hs hlater hle => ?_
  exact lineNumber_lt_of_isLineStart (h.fits later hlater).isLineStart
    ((h.fits s hs).start_lt_stop hsettles |>.trans_le hle)

lemma mem_iff_of_newline_notMem (hsettles : Settles IsHead) (h : Stretch.InTurn (IsHeaded IsHead text) 0 taken)
    (hnewline : ∀ s, IsHeaded IsHead text s → '\n' ∉ (text.drop s.start).take (s.stop - s.start)) :
    s ∈ taken ↔ IsHeaded IsHead text s :=
  h.mem_iff_of_apart (fun _ => IsHeaded.start_lt_stop hsettles)
    fun s _ hs ht => hs.eq_of_inside hsettles (hnewline s hs) ht

end Heads

/-! What is found line by line. -/

lemma EndsLine.clear {set : Char → Bool} {rest : List Char} (h : EndsLine rest) (hset : set '\n' = false) :
    Clear set rest := by
  rcases h with rfl | ⟨more, rfl⟩
  · rfl
  · exact hset

/-- The names that the lines give, together with the lines and in their order. -/
structure Lists (Gives : List Char → List Char → Prop) (text : List Char) (found : List (String × Nat)) : Prop where
  increasing : found.Pairwise (·.2 < ·.2)
  mem_iff : ∀ name n, (name, n) ∈ found ↔ ∃ line, IsLineAt text n line ∧ Gives line name.toList

def BeginsWith (IsHead : List Char → List Char → Prop) (line name : List Char) : Prop :=
  ∃ head, IsHead head name ∧ head <+: line

namespace Lists

variable {Gives : List Char → List Char → Prop} {text before after : List Char} {found first second : List (String × Nat)}

lemma unique (h : Lists Gives text found) (h' : Lists Gives text first) : found = first := by
  have : Std.Antisymm fun f g : String × Nat => f.2 < g.2 := ⟨fun _ _ hlt hgt => absurd hlt (Nat.lt_asymm hgt)⟩
  have : Std.Irrefl fun f g : String × Nat => f.2 < g.2 := ⟨fun _ => Nat.lt_irrefl _⟩
  exact h.increasing.eq_of_mem_iff h'.increasing fun ⟨name, n⟩ => (h.mem_iff name n).trans (h'.mem_iff name n).symm

lemma append (h : Lists Gives before first) (h' : Lists Gives after second) :
    Lists Gives (before ++ '\n' :: after) (first ++ second.map fun f => (f.1, f.2 + (before.count '\n' + 1))) where
  increasing := by
    refine List.pairwise_append.mpr ⟨h.increasing, ?_, ?_⟩
    · exact List.pairwise_map.mpr (h'.increasing.imp fun hlt => Nat.add_lt_add_right hlt _)
    · rintro ⟨name, n⟩ hmem _ hshifted
      obtain ⟨⟨name', m⟩, hmem', rfl⟩ := List.mem_map.mp hshifted
      obtain ⟨line, hline, -⟩ := (h.mem_iff name n).mp hmem
      obtain ⟨line', hline', -⟩ := (h'.mem_iff name' m).mp hmem'
      have hle := hline.le
      have hpos := hline'.1
      dsimp only
      omega
  mem_iff := by
    intro name n
    simp only [List.mem_append, List.mem_map, Prod.mk.injEq, Prod.exists, h.mem_iff, h'.mem_iff, isLineAt_append_iff]
    constructor
    · rintro (⟨line, hline, hgives⟩ | ⟨_, m, ⟨line, hline, hgives⟩, rfl, rfl⟩)
      · exact ⟨line, .inl hline, hgives⟩
      · exact ⟨line, .inr ⟨m, hline, rfl⟩, hgives⟩
    · rintro ⟨line, hline | ⟨m, hline, rfl⟩, hgives⟩
      · exact .inl ⟨line, hline, hgives⟩
      · exact .inr ⟨name, m, ⟨line, hline, hgives⟩, rfl, rfl⟩

end Lists

section Naming

variable {IsHead : List Char → List Char → Prop} {text : List Char} {taken : List Stretch} {s : Stretch}

lemma newline_notMem_of_naming (hnewline : ∀ head name, IsHead head name → '\n' ∉ head)
    (hs : IsHeaded (Naming IsHead) text s) : '\n' ∉ (text.drop s.start).take (s.stop - s.start) := by
  obtain ⟨_, hdrop, name, hhead, rfl⟩ := hs
  rw [hdrop, Nat.add_sub_cancel_left, List.take_left]
  exact hnewline _ _ hhead

lemma lists_of_inTurn (hsettles : Settles (Naming IsHead)) (hnewline : ∀ head name, IsHead head name → '\n' ∉ head)
    (h : Stretch.InTurn (IsHeaded (Naming IsHead) text) 0 taken) :
    Lists (BeginsWith IsHead) text (taken.map fun s => (s.name, s.lineIn text)) where
  increasing := List.pairwise_map.mpr (lines_increase hsettles h)
  mem_iff := by
    intro name n
    simp only [List.mem_map, Prod.mk.injEq,
      mem_iff_of_newline_notMem hsettles h fun _ => newline_notMem_of_naming hnewline]
    constructor
    · rintro ⟨_, ⟨hline, hdrop, name, hhead, rfl⟩, rfl, rfl⟩
      refine ⟨_, isLineAt_of_isLineStart hline, _, ?_, (prefix_lineFrom_iff (hnewline _ _ hhead)).mpr ⟨_, hdrop.symm⟩⟩
      rwa [Stretch.name, List.headD_cons, String.toList_ofList]
    · rintro ⟨line, hline, head, hhead, hbegins⟩
      obtain ⟨place, hstart, rfl, rfl⟩ := exists_isLineStart hline
      obtain ⟨rest, hrest⟩ := (prefix_lineFrom_iff (hnewline _ _ hhead)).mp hbegins
      refine ⟨_, .intro hstart hrest.symm ⟨_, hhead, rfl⟩, ?_, rfl⟩
      rw [Stretch.name, List.headD_cons, String.ofList_toList]

end Naming

lemma Stretch.elements_eq {p : Pattern} {text : List Char} {taken : List Stretch} (hn : text.count '\n' < 2 ^ 32 - 1)
    (hs : (Source.ofText text).sightings p = taken.map (·.sighting text)) (kind : Element.Kind) :
    ((Source.ofText text).elements kind p).map (fun e => (e.kind, e.name, e.line.toNat)) =
      taken.map fun s => (kind, s.name, s.lineIn text) := by
  rw [Source.elements, hs, List.map_map, List.map_map]
  refine List.map_congr_left fun s _ => ?_
  rw [Function.comp_apply, Function.comp_apply, ← Stretch.toNat_lineIn hn]
  rfl

lemma Stretch.names_eq {p : Pattern} {text : List Char} {taken : List Stretch} (hn : text.count '\n' < 2 ^ 32 - 1)
    (hs : (Source.ofText text).sightings p = taken.map (·.sighting text)) (kind : Element.Kind) :
    ((Source.ofText text).elements kind p).map (fun e => (e.name, e.line.toNat)) =
      taken.map fun s => (s.name, s.lineIn text) := by
  have helements := congrArg (List.map Prod.snd) (Stretch.elements_eq hn hs kind)
  rwa [List.map_map, List.map_map] at helements

end CodeOutline
