import CodeOutline.Proofs.Recognition.InTurn
import CodeOutline.Proofs.Text.Pieces
import CodeOutline.Recognition.Java
import Mathlib.Data.List.DropRight

/-! The methods of a Java text, told parenthesis by parenthesis: what stands before an opening parenthesis settles
whether a method is declared there. -/

namespace CodeOutline.Recognition.Java

open Pattern Text

def visibilities : List String := ["public", "private", "protected"]

def isChunkChar (x : Char) : Bool := isTypeChar x || isBlank x

/-- The longest part of the text that ends at the place and is made of blanks and the characters of types. -/
def chunkBefore (text : List Char) (place : Nat) : List Char := (text.take place).rtakeWhile isChunkChar

/-- A visibility, a blank and two pieces or more, of which the last is the name. -/
def IsHeading (heading name : List Char) : Prop :=
  ∃ visibility ∈ visibilities, ∃ x rest, heading = visibility.toList ++ x :: rest ∧ isBlank x = true ∧
    2 ≤ (pieces rest).length ∧ (pieces rest).getLast? = some name ∧ ∀ y ∈ name, isAsciiWord y = true

/-- From `start` on, inside the chunk before the parenthesis at `place`, a method is declared. -/
structure Heads (text : List Char) (start place : Nat) (name : List Char) : Prop where
  paren : text[place]? = some '('
  inChunk : (text.take place).drop start <:+ chunkBefore text place
  isWordEdge : IsWordEdge text start
  isHeading : IsHeading ((text.take place).drop start) name

/-- A stretch from a visibility to the parenthesis behind the name. -/
inductive IsMethod (text : List Char) : Stretch → Prop
  | intro {start place name} : Heads text start place name → IsMethod text ⟨start, place + 1, [name]⟩

variable {text heading name : List Char} {start place : Nat}

lemma IsHeading.getLast?_pieces (h : IsHeading heading name) : (pieces heading).getLast? = some name := by
  obtain ⟨visibility, _, x, rest, rfl, hx, _, hlast, _⟩ := h
  rw [pieces_append_blank hx, List.getLast?_append, hlast, Option.some_or]

lemma drop_take_suffix_iff {set : Char → Bool} {cs : List Char} :
    cs.drop start <:+ cs.rtakeWhile set ↔ ∀ x ∈ cs.drop start, set x = true := by
  constructor
  · exact fun h x hx => List.mem_rtakeWhile_imp (h.subset hx)
  · intro h
    have hreverse : ∀ x ∈ (cs.drop start).reverse, set x = true := fun x hx => h x (List.mem_reverse.mp hx)
    refine ⟨(cs.take start).rtakeWhile set, ?_⟩
    conv_rhs => rw [← List.take_append_drop start cs]
    simp only [List.rtakeWhile]
    rw [List.reverse_append, List.takeWhile_append_of_pos hreverse, List.reverse_append, List.reverse_reverse]

namespace Heads

variable {start' place' : Nat} {name' : List Char}

lemma isChunkChar_of_mem (h : Heads text start place name) : ∀ x ∈ (text.take place).drop start, isChunkChar x = true :=
  drop_take_suffix_iff.mp h.inChunk

lemma start_lt (h : Heads text start place name) : start < place := by
  obtain ⟨visibility, _, x, rest, hheading, _⟩ := h.isHeading
  have hlength := congrArg List.length hheading
  rw [List.length_drop, List.length_take, List.length_append, List.length_cons] at hlength
  omega

/-- There is no other parenthesis between a visibility and the one behind the name. -/
lemma le_of_paren (h : Heads text start place name) (hstart : start ≤ place') (hparen : text[place']? = some '(') :
    place ≤ place' := by
  by_contra hlt
  rw [Nat.not_le] at hlt
  have hmem : '(' ∈ (text.take place).drop start := by
    refine List.mem_of_getElem? (i := place' - start) ?_
    rw [List.getElem?_drop, Nat.add_sub_cancel' hstart, List.getElem?_take_of_lt hlt, hparen]
  exact absurd (h.isChunkChar_of_mem _ hmem) (by decide)

lemma place_eq (h : Heads text start place name) (h' : Heads text start' place' name') (hle : start ≤ start')
    (hinside : start' ≤ place) : place' = place := by
  have hlt := h'.start_lt
  exact Nat.le_antisymm (h'.le_of_paren hinside h.paren) (h.le_of_paren (by omega) h'.paren)

lemma name_eq (h : Heads text start place name) (h' : Heads text start place name') : name = name' :=
  Option.some.inj (h.isHeading.getLast?_pieces.symm.trans h'.isHeading.getLast?_pieces)

end Heads

namespace IsMethod

variable {s t : Stretch}

lemma start_lt_stop (h : IsMethod text s) : s.start < s.stop := by
  obtain ⟨h⟩ := h
  exact Nat.lt_succ_of_lt h.start_lt

lemma stop_eq (hs : IsMethod text s) (ht : IsMethod text t) (hle : s.start ≤ t.start) (hinside : t.start < s.stop) :
    t.stop = s.stop := by
  obtain ⟨hs⟩ := hs
  obtain ⟨ht⟩ := ht
  exact congrArg (· + 1) (hs.place_eq ht hle (Nat.le_of_lt_succ hinside))

lemma eq_of_start_eq (hs : IsMethod text s) (ht : IsMethod text t) (hstart : s.start = t.start) : s = t := by
  have hstop := hs.stop_eq ht hstart.le (hstart ▸ hs.start_lt_stop)
  obtain ⟨hs⟩ := hs
  obtain ⟨ht⟩ := ht
  obtain rfl := hstart
  obtain rfl := Nat.succ.inj hstop
  rw [hs.name_eq ht]

end IsMethod

end CodeOutline.Recognition.Java
