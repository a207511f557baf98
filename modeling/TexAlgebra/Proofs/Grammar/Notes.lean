import Mathlib.Logic.Basic
import TexAlgebra.Proofs.Grammar.Fixpoint
/-!
# Parsers that note names

The name of a function is noted as soon as its head was read, and is kept even if the reading fails
later. A head is completed by a closing parenthesis and a closing brace behind `\func`
(`completesHead`).

`Parser.Notes` says of a parser what its names and its results are like if no head is completed
among the tokens that it reads: names are only added, and then none is added. A name that is bound
to a function counts too, for a function is the result of a head. Parsers of which this is so can be
combined to others, and `Parser.Notes.closed` is where a head is completed.
-/

namespace TexAlgebra

/-! ## Heads of functions -/

/-- Whether the token introduces a function. -/
def Token.definesFunction (t : Token) : Bool := t.kind = .controlWord ∧ t.text = "\\func"

/-- Whether some tokens complete the head of a function, one that starts among them or, if `inHead`,
one that started before them. -/
def completesHead : Bool → List Token → Bool
  | _, [] => false
  | inHead, t :: ts =>
    (inHead && t.kind = .parenClose && ts.head?.any (·.kind = .braceClose)) ||
      completesHead (inHead || t.definesFunction) ts

variable {inHead : Bool} {read later : List Token}

/-- Outside of a head no less has to be read to complete one. -/
theorem completesHead_of_or {defines : Bool} (h : completesHead (inHead || defines) read = false) :
    completesHead inHead read = false := by
  induction read generalizing inHead with
  | nil => rfl
  | cons t ts ih =>
    simp only [completesHead, Bool.or_eq_false_iff] at h ⊢
    rw [Bool.or_right_comm] at h
    refine ⟨?_, ih h.2⟩
    cases inHead
    · rfl
    · exact h.1

/-- Neither part of what completes no head completes one. -/
theorem completesHead_of_append (h : completesHead inHead (read ++ later) = false) :
    completesHead inHead read = false ∧ completesHead inHead later = false := by
  induction read generalizing inHead with
  | nil => exact ⟨rfl, h⟩
  | cons t ts ih =>
    simp only [List.cons_append, completesHead, Bool.or_eq_false_iff] at h ⊢
    obtain ⟨within, behind⟩ := ih h.2
    refine ⟨⟨?_, within⟩, completesHead_of_or behind⟩
    cases ts with
    | nil => simp
    | cons u ts => exact h.1

/-- A closing parenthesis and a closing brace complete a head. -/
theorem completesHead_closed (read : List Token) {t u : Token} (paren : t.kind = .parenClose)
    (brace : u.kind = .braceClose) : completesHead true (read ++ [t, u]) = true := by
  refine Bool.of_not_eq_false fun incomplete => ?_
  have last := (completesHead_of_append incomplete).2
  simp [completesHead, paren, brace] at last

/-! ## Noted names -/

variable {α β : Type} {P : Prop} {Q : α → Prop} {R : β → Prop}

/-- Whether reading goes on from `k` to `k'`, with names only added, and so that no name is added
and `Q` holds if `P` does and no head is completed. -/
def Cursor.Notes (inHead : Bool) (P : Prop) (k k' : Cursor) (Q : Prop) : Prop :=
  ∃ read names, k.rest = read ++ k'.rest ∧ k'.functions = k.functions ++ names ∧
    (P → completesHead inHead read = false → names = [] ∧ Q)

namespace Cursor.Notes

variable {k k₁ k₂ : Cursor} {Q R : Prop}

/-- Where nothing is read no name is added. -/
theorem refl (h : P → Q) : Cursor.Notes inHead P k k Q :=
  ⟨[], [], rfl, (List.append_nil _).symm, fun holds _ => ⟨rfl, h holds⟩⟩

/-- Two steps that note nothing note nothing together. -/
theorem trans (h : Cursor.Notes inHead P k k₁ Q) (h' : Cursor.Notes inHead (P ∧ Q) k₁ k₂ R) :
    Cursor.Notes inHead P k k₂ R := by
  obtain ⟨read, names, rest, functions, first⟩ := h
  obtain ⟨read', names', rest', functions', second⟩ := h'
  refine ⟨read ++ read', names ++ names', ?_, ?_, fun holds incomplete => ?_⟩
  · rw [rest, rest', List.append_assoc]
  · rw [functions', functions, List.append_assoc]
  · obtain ⟨before, behind⟩ := completesHead_of_append incomplete
    obtain ⟨rfl, hQ⟩ := first holds before
    obtain ⟨rfl, hR⟩ := second ⟨holds, hQ⟩ behind
    exact ⟨rfl, hR⟩

/-- What is known from less follows from more. -/
theorem mono {P' Q' : Prop} (h : Cursor.Notes inHead P k k₁ Q) (pre : P' → P) (post : Q → Q') :
    Cursor.Notes inHead P' k k₁ Q' := by
  obtain ⟨read, names, rest, functions, noted⟩ := h
  exact ⟨read, names, rest, functions, fun holds incomplete =>
    (noted (pre holds) incomplete).imp id post⟩

/-- Reading alone notes nothing. -/
theorem of_suffix {rest : List Token} (h : rest <:+ k.rest) (holds : P → Q) :
    Cursor.Notes inHead P k { k with rest := rest } Q := by
  obtain ⟨read, whole⟩ := h
  exact ⟨read, [], whole.symm, (List.append_nil _).symm, fun hP _ => ⟨rfl, holds hP⟩⟩

end Cursor.Notes

/-- Whether a reading ends so, from the cursor `k`. -/
def Reading.Notes (inHead : Bool) (P : Prop) (k : Cursor) (Q : α → Prop) : Reading α → Prop
  | .done a k' => k.Notes inHead P k' (Q a)
  | .failed _ k' => k.Notes inHead P k' True
  | .exhausted => True

namespace Parser

/-- Whether all readings of a parser end so. -/
def Notes (inHead : Bool) (P : Prop) (p : Parser α) (Q : α → Prop) : Prop :=
  ∀ context k, (p context k).Notes inHead P k Q

/-- Whether this is so where `token` is next. -/
def NotesAt (inHead : Bool) (P : Prop) (token : Token) (p : Parser α) (Q : α → Prop) : Prop :=
  ∀ context k, k.token context = token → (p context k).Notes inHead P k Q

/-! ## Combination -/

variable {p : Parser α} {f : α → Parser β} {token : Token}

theorem Notes.at (h : p.Notes inHead P Q) (token : Token) : p.NotesAt inHead P token Q :=
  fun context k _ => h context k

theorem notes_pure {a : α} (h : P → Q a) : (pure a : Parser α).Notes inHead P Q :=
  fun _ _ => .refl h

theorem notes_fail {cause : ParseCause} : (fail cause token : Parser α).Notes inHead P Q :=
  fun _ _ => .refl fun _ => trivial

theorem notes_exhausted : (exhausted : Parser α).Notes inHead P Q := fun _ _ => trivial

theorem notes_ite {p q : Parser α} {c : Prop} [Decidable c] (hp : p.Notes inHead P Q)
    (hq : q.Notes inHead P Q) : (if c then p else q).Notes inHead P Q := by
  split
  · exact hp
  · exact hq

/-- A sequence notes what its steps note, and the second one knows the result of the first. -/
theorem NotesAt.bind (hp : p.NotesAt inHead P token Q)
    (hf : ∀ a, (f a).Notes inHead (P ∧ Q a) R) : (p >>= f).NotesAt inHead P token R := by
  intro context k there
  have first := hp context k there
  rw [bind_eq, andThen]
  cases reading : p context k with
  | done a m =>
    rw [reading] at first
    have second := hf a context m
    show Reading.Notes _ _ _ _ (f a context m)
    cases reading' : f a context m with
    | done b k' =>
      rw [reading'] at second
      exact Cursor.Notes.trans first second
    | failed fault k' =>
      rw [reading'] at second
      exact Cursor.Notes.trans first second
    | exhausted => trivial
  | failed fault m =>
    rw [reading] at first
    exact first
  | exhausted => trivial

/-- The same without a token. -/
theorem Notes.bind (hp : p.Notes inHead P Q) (hf : ∀ a, (f a).Notes inHead (P ∧ Q a) R) :
    (p >>= f).Notes inHead P R :=
  fun context k => (hp.at _).bind hf context k rfl

/-- A parser notes as much if more is known. -/
theorem Notes.mono {P' : Prop} {Q' : α → Prop} (h : p.Notes inHead P Q) (pre : P' → P)
    (post : ∀ a, Q a → Q' a) : p.Notes inHead P' Q' := by
  intro context k
  have ends := h context k
  cases reading : p context k with
  | done a k' =>
    rw [reading] at ends
    exact Cursor.Notes.mono ends pre (post a)
  | failed fault k' =>
    rw [reading] at ends
    exact Cursor.Notes.mono ends pre id
  | exhausted => trivial

/-- Within a head, what would complete one of its own completes that one. -/
theorem Notes.within (h : p.Notes false P Q) : p.Notes true P Q := by
  intro context k
  have ends := h context k
  have weaken {k' : Cursor} {Q : Prop} (h : Cursor.Notes false P k k' Q) :
      Cursor.Notes true P k k' Q := by
    obtain ⟨read, names, split, added, noted⟩ := h
    refine ⟨read, names, split, added, fun holds incomplete => noted holds ?_⟩
    have incomplete' : completesHead (false || true) read = false := incomplete
    exact completesHead_of_or incomplete'
  cases reading : p context k with
  | done a k' =>
    rw [reading] at ends
    exact weaken ends
  | failed fault k' =>
    rw [reading] at ends
    exact weaken ends
  | exhausted => trivial

/-- Where the result does not matter, nothing more is known after it. -/
theorem Notes.then (hp : p.Notes inHead P Q) (hf : ∀ a, (f a).Notes inHead P R) :
    (p >>= f).Notes inHead P R :=
  hp.bind fun a => (hf a).mono And.left fun _ => id

/-! ## Single tokens -/

/-- To look at the next token notes nothing. -/
theorem notes_peek_bind {f : Token → Parser β} (h : ∀ t, (f t).NotesAt inHead P t R) :
    (peek >>= f).Notes inHead P R :=
  fun context k => h _ context k rfl

theorem notesAt_peek_bind {f : Token → Parser β} (h : (f token).NotesAt inHead P token R) :
    (peek >>= f).NotesAt inHead P token R := by
  rintro context k rfl
  exact h context k rfl

/-- To read a token notes nothing. -/
theorem notes_next : next.Notes inHead P fun _ => True :=
  fun _ _ => .of_suffix (List.drop_suffix _ _) fun _ => trivial

/-- Behind `\func` a head may be completed. -/
theorem notesAt_next_bind {f : Token → Parser β} (defines : token.definesFunction = true)
    (h : (f token).Notes true P R) : (next >>= f).NotesAt false P token R := by
  rintro context ⟨rest, functions⟩ there
  cases rest with
  | nil =>
    subst there
    cases defines
  | cons t rest =>
    obtain rfl : t = token := there
    have extend {k' : Cursor} {Q : Prop} (h : Cursor.Notes true P ⟨rest, functions⟩ k' Q) :
        Cursor.Notes false P ⟨t :: rest, functions⟩ k' Q := by
      obtain ⟨read, names, split, added, noted⟩ := h
      refine ⟨t :: read, names, congrArg (t :: ·) split, added, fun holds incomplete => ?_⟩
      rw [completesHead, Bool.false_and, Bool.false_and, Bool.false_or, Bool.false_or,
        defines] at incomplete
      exact noted holds incomplete
    have ends := h context ⟨rest, functions⟩
    show Reading.Notes _ _ _ _ (f t context ⟨rest, functions⟩)
    cases reading : f t context ⟨rest, functions⟩ with
    | done b k' =>
      rw [reading] at ends
      exact extend ends
    | failed fault k' =>
      rw [reading] at ends
      exact extend ends
    | exhausted => trivial

theorem notes_sees (kind : TokenKind) : (sees kind).Notes inHead P fun _ => True :=
  fun _ _ => .refl fun _ => trivial

/-- To skip ends of statements notes nothing. -/
theorem notes_skipEnds : skipEnds.Notes inHead P fun _ => True :=
  fun _ _ => .of_suffix (List.dropWhile_suffix _) fun _ => trivial

theorem notes_isFunction (x : Expr) : (isFunction x).Notes inHead P fun _ => True :=
  fun _ _ => .refl fun _ => trivial

/-- To expect a token notes nothing. -/
theorem notes_expect (kind : TokenKind) (character : String) :
    (expect kind character).Notes inHead P fun _ => True :=
  notes_next.then fun _ => notes_ite notes_fail (notes_ite (notes_pure fun _ => trivial) notes_fail)

/-- A name is noted only where that is not excluded. -/
theorem notes_define (name : Expr) (never : ¬P) :
    (define name).Notes inHead P fun _ => True :=
  fun _ _ => ⟨[], [name], rfl, rfl, fun holds => absurd holds never⟩

/-! ## The last token -/

/-- Whether what is read ends with a token of one kind. -/
def EndsWith (kind : TokenKind) (p : Parser α) : Prop :=
  ∀ context k a k', p context k = .done a k' →
    ∃ read t, k.rest = read ++ t :: k'.rest ∧ t.kind = kind

/-- A sequence ends as its last step does. -/
theorem endsWith_bind {kind : TokenKind} (kept : p.Keeps) (hf : ∀ a, (f a).EndsWith kind) :
    (p >>= f).EndsWith kind := by
  intro context k b k' h
  obtain ⟨a, m, first, second⟩ := done_of_bind h
  obtain ⟨before, split⟩ := kept.suffix first
  obtain ⟨read, t, split', same⟩ := hf a context m b k' second
  exact ⟨before ++ read, t, by rw [← split, split', List.append_assoc], same⟩

/-- Nothing is read behind the last token. -/
theorem EndsWith.bind_pure {kind : TokenKind} (h : p.EndsWith kind) (g : α → β) :
    (p >>= fun a => pure (g a)).EndsWith kind := by
  intro context k b k' done
  obtain ⟨a, m, first, ⟨⟩⟩ := done_of_bind done
  exact h context k a k' first

/-- The token at a cursor is the first of the rest, unless the rest is at its end. -/
theorem rest_eq_cons {context : Context} {k : Cursor}
    (inner : (k.token context).kind ≠ .endOfText) :
    k.rest = k.token context :: k.rest.drop 1 := by
  obtain ⟨rest, functions⟩ := k
  cases rest with
  | nil => exact absurd rfl inner
  | cons t rest => rfl

/-- A token that was expected is the one that was read. -/
theorem rest_of_expect {kind : TokenKind} {character : String} {context : Context}
    {k k' : Cursor} {t : Token}
    (h : expect kind character context k = .done t k') : k.rest = t :: k'.rest ∧ t.kind = kind := by
  obtain ⟨inner, rfl, same, rfl⟩ := expect_done h
  exact ⟨rest_eq_cons inner, same⟩

/-- What was expected comes last. -/
theorem endsWith_expect (kind : TokenKind) (character : String) :
    (expect kind character).EndsWith kind := by
  intro context k t k' h
  obtain ⟨split, same⟩ := rest_of_expect h
  exact ⟨[], t, split, same⟩

/-- Whether what is read ends so together with `token`, when that was the token before. -/
def EndsBehind (kind : TokenKind) (token : Token) (p : Parser α) : Prop :=
  ∀ context k a k', p context k = .done a k' → token.kind ≠ .endOfText ∧
    ∃ read t, token :: k.rest = read ++ t :: k'.rest ∧ t.kind = kind

/-- Behind a token the rest ends as it says. -/
theorem endsWith_next_bind {kind : TokenKind} {f : Token → Parser β}
    (h : ∀ t, (f t).EndsBehind kind t) : (next >>= f).EndsWith kind := by
  intro context k a k' done
  obtain ⟨inner, ends⟩ := h _ context _ a k' done
  rw [rest_eq_cons inner]
  exact ends

theorem endsBehind_pure {kind : TokenKind} {a : α} (same : token.kind = kind)
    (inner : kind ≠ .endOfText) : (pure a : Parser α).EndsBehind kind token := by
  rintro context k _ _ ⟨⟩
  exact ⟨same.trans_ne inner, [], token, rfl, same⟩

/-- A token before the last one changes nothing. -/
theorem EndsWith.behind {kind : TokenKind} (h : p.EndsWith kind) (inner : token.kind ≠ .endOfText) :
    p.EndsBehind kind token := by
  intro context k a k' done
  obtain ⟨read, t, split, same⟩ := h context k a k' done
  exact ⟨inner, token :: read, t, congrArg (token :: ·) split, same⟩

/-- If a closing brace follows a closing parenthesis within a head, then the head is completed. -/
theorem Notes.closed (hp : p.Notes true P Q) (ends : p.EndsWith .parenClose) (character : String) :
    (p >>= fun a => expect .braceClose character >>= fun _ => pure a).Notes true P
      fun _ => False := by
  have whole : (p >>= fun a => expect .braceClose character >>= fun _ => pure a).Notes true P
      fun _ => True :=
    hp.bind fun a => (notes_expect _ _).then fun _ => notes_pure fun _ => trivial
  intro context k
  have kept := whole context k
  cases reading : (p >>= fun a => expect .braceClose character >>= fun _ => pure a) context k with
  | done a k' =>
    rw [reading] at kept
    obtain ⟨read, names, split, added, -⟩ := kept
    obtain ⟨b, m, first, later⟩ := done_of_bind reading
    obtain ⟨u, m', closing, ⟨⟩⟩ := done_of_bind later
    obtain ⟨before, t, split', paren⟩ := ends context k a m first
    obtain ⟨split'', brace⟩ := rest_of_expect closing
    have whole : read ++ k'.rest = (before ++ [t, u]) ++ k'.rest := by
      rw [← split, split', split'', List.append_assoc]
      rfl
    refine ⟨read, names, split, added, fun _ incomplete => ?_⟩
    rw [List.append_cancel_right whole, completesHead_closed before paren brace] at incomplete
    cases incomplete
  | failed fault k' =>
    rw [reading] at kept
    exact kept
  | exhausted => trivial

end Parser

end TexAlgebra
