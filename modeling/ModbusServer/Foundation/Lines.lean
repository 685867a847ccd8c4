import Mathlib.Data.List.Basic
import Mathlib.Tactic.Common

/-!
# Lines and bounded reads of a stream

A stream is cut into lines behind each terminator; the last line may lack one. A reader with a
bounded buffer cuts it into pieces instead: a piece ends behind a terminator, at the bound, or at
the end of the stream. The pieces are the lines as long as the lines stay within the bound.

## Main definitions

* `Lines.lines`: the lines of a stream.
* `Lines.Framed`: the pieces that a bounded reader has cut off a stream.
* `Lines.firstPiece`: the piece that is cut off next.
* `Lines.Quiet`, `Lines.Settled`: no short line is left behind.

## Main results

* `Lines.flatten_lines`: the lines make up the stream.
* `Lines.lines_append`: the lines of a stream that goes on behind a terminator.
* `Lines.Framed.prefix_lines_iff`: when the pieces read so far, or what is seen of them, are lines.
* `Lines.Framed.exists_piece`: a short line that has been read is one of the pieces.
* `Lines.Settled.exists_piece`, `Lines.Settled.of_exists_piece`: a buffer is settled if and only if
  every short line of the stream has been read.
-/

namespace Lines

variable {α : Type*} [DecidableEq α] (nl : α)

/-- The lines of a stream, each with its terminator. -/
def lines : List α → List (List α)
  | [] => []
  | c :: s =>
    if c = nl then [c] :: lines s
    else
      match lines s with
      | [] => [[c]]
      | l :: ls => (c :: l) :: ls

/-- A nonempty list with no terminator but at its end. -/
structure IsPiece (p : List α) : Prop where
  ne_nil : p ≠ []
  notMem_dropLast : nl ∉ p.dropLast

/-- A piece with its terminator, of at most `n` elements. -/
structure IsShortLine (n : ℕ) (l : List α) : Prop where
  exists_eq : ∃ m, nl ∉ m ∧ l = m ++ [nl]
  length_le : l.length ≤ n

/-- The beginning of the stream, or just behind a terminator. -/
def AtLineStart (p : List α) : Prop := p = [] ∨ p.getLast? = some nl

/-- `pieces` have been cut off the front of a stream that continues with `rest`, each behind a
terminator, at the length `n`, or at the end of a stream that is `closed`. -/
def Framed (n : ℕ) (closed : Bool) : List (List α) → List α → Prop
  | [], _ => True
  | p :: pieces, rest =>
    (IsPiece nl p ∧ p.length ≤ n ∧
      (p.getLast? = some nl ∨ p.length = n ∨ (closed = true ∧ pieces.flatten ++ rest = []))) ∧
    Framed n closed pieces rest

/-- The first piece of at most `n` elements: it ends behind the first terminator, at the length `n`
or at the end of the stream. -/
def firstPiece : ℕ → List α → List α
  | 0, _ => []
  | _ + 1, [] => []
  | n + 1, c :: s => if c = nl then [c] else c :: firstPiece n s

/-- The first piece of the stream ends before the end of the stream is looked at. -/
def Complete (n : ℕ) (s : List α) : Prop := nl ∈ s ∨ n ≤ s.length

/-- No short line stands behind a terminator. -/
def Quiet (n : ℕ) (s : List α) : Prop :=
  ∀ p l q, s = p ++ (l ++ q) → p.getLast? = some nl → ¬IsShortLine nl n l

/-- Of the part `buffer` of the stream behind the pieces, no short line begins in it at the
beginning of a line. -/
structure Settled (n : ℕ) (pieces : List (List α)) (buffer : List α) : Prop where
  quiet : Quiet nl n buffer
  no_line_in_front : AtLineStart nl pieces.flatten → ∀ l q, buffer = l ++ q → ¬IsShortLine nl n l

variable {nl} {n : ℕ} {closed : Bool} {p l m s rest : List α} {pieces : List (List α)}

/-! ### Lines -/

@[simp] theorem lines_nil : lines nl ([] : List α) = [] := rfl

theorem ne_nil_of_mem_lines (h : l ∈ lines nl s) : l ≠ [] := by
  induction s generalizing l with
  | nil => simp at h
  | cons c s ih =>
    rw [lines] at h
    split at h
    · rcases List.mem_cons.mp h with rfl | h
      · simp
      · exact ih h
    · cases hls : lines nl s with
      | nil =>
        rw [hls] at h
        simp [List.mem_singleton.mp h]
      | cons l' ls =>
        rw [hls] at h
        rcases List.mem_cons.mp h with rfl | h
        · simp
        · exact ih (hls ▸ List.mem_cons_of_mem _ h)

/-- The lines make up the stream. -/
theorem flatten_lines (nl : α) (s : List α) : (lines nl s).flatten = s := by
  induction s with
  | nil => rfl
  | cons c s ih =>
    rw [lines]
    split
    · simp [ih]
    · split
      · next h =>
        rw [h, List.flatten_nil] at ih
        rw [← ih]
        rfl
      · next l ls h =>
        rw [h] at ih
        rw [← ih]
        rfl

theorem exists_lines_eq_cons (nl : α) (h : s ≠ []) : ∃ l ls, lines nl s = l :: ls := by
  refine List.exists_cons_of_ne_nil fun hnil => h ?_
  rw [← flatten_lines nl s, hnil, List.flatten_nil]

/-- A terminated line in front is the first line. -/
theorem lines_append_of_notMem (h : nl ∉ m) (s : List α) :
    lines nl (m ++ nl :: s) = (m ++ [nl]) :: lines nl s := by
  induction m with
  | nil => simp [lines]
  | cons c m ih =>
    have hc : ¬c = nl := fun hc => h (hc ▸ List.mem_cons_self)
    rw [List.cons_append, lines, if_neg hc, ih fun hm => h (List.mem_cons_of_mem _ hm)]
    rfl

/-- A stream without a terminator is one line. -/
theorem lines_of_notMem (h : nl ∉ s) (hs : s ≠ []) : lines nl s = [s] := by
  induction s with
  | nil => exact absurd rfl hs
  | cons c s ih =>
    have hc : ¬c = nl := fun hc => h (hc ▸ List.mem_cons_self)
    rw [lines, if_neg hc]
    cases s with
    | nil => rfl
    | cons d s => rw [ih (fun hm => h (List.mem_cons_of_mem _ hm)) (by simp)]

/-- A front without a terminator belongs to the first line. -/
theorem lines_append_of_cons {ls : List (List α)} (h : nl ∉ p) (hs : lines nl s = l :: ls) :
    lines nl (p ++ s) = (p ++ l) :: ls := by
  induction p with
  | nil => exact hs
  | cons c p ih =>
    have hc : ¬c = nl := fun hc => h (hc ▸ List.mem_cons_self)
    rw [List.cons_append, lines, if_neg hc, ih fun hm => h (List.mem_cons_of_mem _ hm)]
    rfl

/-- A front that ends at the beginning of a line. -/
theorem lines_append (h : AtLineStart nl p) (s : List α) :
    lines nl (p ++ s) = lines nl p ++ lines nl s := by
  induction p with
  | nil => rfl
  | cons c p ih =>
    have hlast : (c :: p).getLast? = some nl := h.resolve_left (List.cons_ne_nil c p)
    by_cases hp : p = []
    · obtain rfl : c = nl := by simpa [hp] using hlast
      simp [hp, lines]
    · have htail : AtLineStart nl p := .inr (by simpa [List.getLast?_cons_of_ne_nil hp] using hlast)
      rw [List.cons_append, lines, lines, ih htail]
      by_cases hc : c = nl
      · simp [hc]
      · obtain ⟨l, ls, hls⟩ := exists_lines_eq_cons nl hp
        simp [hc, hls]

/-! ### Pieces -/

theorem firstPiece_eq_nil_iff : firstPiece nl n s = [] ↔ n = 0 ∨ s = [] := by
  cases n with
  | zero => simp [firstPiece]
  | succ n =>
    cases s with
    | nil => simp [firstPiece]
    | cons c s =>
      rw [firstPiece]
      split_ifs <;> simp

omit [DecidableEq α]

theorem complete_zero (nl : α) (s : List α) : Complete nl 0 s := .inr (Nat.zero_le _)

theorem not_complete_nil : ¬Complete nl (n + 1) [] := by simp [Complete]

theorem complete_cons_iff {c : α} (hc : c ≠ nl) :
    Complete nl (n + 1) (c :: s) ↔ Complete nl n s := by
  simp [Complete, hc.symm]

theorem IsPiece.eq_append (h : IsPiece nl p) (hlast : p.getLast? = some nl) :
    ∃ m, nl ∉ m ∧ p = m ++ [nl] := by
  obtain ⟨m, rfl⟩ := List.getLast?_eq_some_iff.mp hlast
  exact ⟨m, by simpa using h.notMem_dropLast, rfl⟩

theorem IsPiece.notMem (h : IsPiece nl p) (hlast : p.getLast? ≠ some nl) : nl ∉ p := by
  intro hmem
  obtain ⟨m, c, rfl⟩ : ∃ m c, p = m ++ [c] :=
    ⟨_, _, (List.dropLast_append_getLast h.ne_nil).symm⟩
  rcases List.mem_append.mp hmem with hm | hc
  · exact h.notMem_dropLast (by simpa using hm)
  · exact hlast (by simp [List.mem_singleton.mp hc])

/-- Cutting one more piece off the stream. -/
theorem Framed.concat (h : Framed nl n closed pieces (p ++ rest)) (hp : IsPiece nl p)
    (hlen : p.length ≤ n)
    (hend : p.getLast? = some nl ∨ p.length = n ∨ (closed = true ∧ rest = [])) :
    Framed nl n closed (pieces ++ [p]) rest := by
  induction pieces with
  | nil => exact ⟨⟨hp, hlen, by simpa using hend⟩, trivial⟩
  | cons q pieces ih => exact ⟨by simpa using h.1, ih h.2⟩

/-- The stream continues, or is closed. -/
theorem Framed.extend (h : Framed nl n false pieces rest) (more : List α) :
    Framed nl n closed pieces (rest ++ more) := by
  induction pieces with
  | nil => trivial
  | cons p pieces ih =>
    refine ⟨⟨h.1.1, h.1.2.1, ?_⟩, ih h.2⟩
    rcases h.1.2.2 with hlast | hlen | ⟨hclosed, -⟩
    · exact .inl hlast
    · exact .inr (.inl hlen)
    · simp at hclosed

variable [DecidableEq α]

/-- **Pieces and lines.** What is seen of the pieces are the first lines of the stream exactly if
each of these lines fits in the buffer and is seen whole. -/
theorem Framed.prefix_lines_iff {seen : List α → List α} (hseen : ∀ p, seen p <+: p)
    (h : Framed nl n closed pieces rest) :
    pieces.map seen <+: lines nl (pieces.flatten ++ rest) ↔
      ∀ l ∈ (lines nl (pieces.flatten ++ rest)).take pieces.length,
        l.length ≤ n ∧ seen l = l := by
  induction pieces with
  | nil => simp
  | cons p pieces ih =>
    obtain ⟨⟨hp, hlen, hend⟩, hframed⟩ := h
    have ih := ih hframed
    rw [List.flatten_cons, List.append_assoc]
    -- the piece is a line: both sides speak about the pieces behind it
    have whole (hlines : lines nl (p ++ (pieces.flatten ++ rest)) =
        p :: lines nl (pieces.flatten ++ rest)) :
        (p :: pieces).map seen <+: lines nl (p ++ (pieces.flatten ++ rest)) ↔
          ∀ l ∈ (lines nl (p ++ (pieces.flatten ++ rest))).take (p :: pieces).length,
            l.length ≤ n ∧ seen l = l := by
      rw [hlines, List.map_cons, List.cons_prefix_cons, ih, List.length_cons,
        List.take_succ_cons, List.forall_mem_cons]
      simp [hlen]
    by_cases hlast : p.getLast? = some nl
    · obtain ⟨m, hm, rfl⟩ := hp.eq_append hlast
      exact whole (by rw [List.append_assoc]; exact lines_append_of_notMem hm _)
    · have hnl := hp.notMem hlast
      by_cases hrest : pieces.flatten ++ rest = []
      · exact whole (by rw [hrest, List.append_nil, lines_of_notMem hnl hp.ne_nil, lines_nil])
      · -- the piece fills the buffer and the line goes on
        have hfull : p.length = n := by
          rcases hend with hlast' | hfull | ⟨-, hnil⟩
          · exact absurd hlast' hlast
          · exact hfull
          · exact absurd hnil hrest
        obtain ⟨l, ls, hls⟩ := exists_lines_eq_cons nl hrest
        have hl : 0 < l.length :=
          List.length_pos_iff.mpr (ne_nil_of_mem_lines (hls ▸ List.mem_cons_self))
        rw [lines_append_of_cons hnl hls]
        refine iff_of_false ?_ fun hall => ?_
        · intro hprefix
          have hseen_eq := (List.cons_prefix_cons.mp hprefix).1
          have hshort := (hseen p).length_le
          rw [hseen_eq, List.length_append] at hshort
          omega
        · have hlong := (hall (p ++ l) (by simp)).1
          rw [List.length_append] at hlong
          omega

omit [DecidableEq α]

/-- A front without a terminator ends before the first terminator. -/
theorem length_le_of_notMem {c q : List α} (hc : nl ∉ c) (h : c ++ s = m ++ nl :: q) :
    c.length ≤ m.length := by
  by_contra hlt
  have hget : (c ++ s)[m.length]? = some nl := by
    rw [h, List.getElem?_append_right (Nat.le_refl _), Nat.sub_self]
    rfl
  rw [List.getElem?_append_left (by omega)] at hget
  exact hc (List.mem_of_getElem? hget)

/-- Two streams that agree agree on what stands before the first terminator. -/
theorem eq_of_append_eq {q : List α} (hp : nl ∉ p) (hm : nl ∉ m)
    (h : p ++ nl :: s = m ++ nl :: q) : p = m := by
  have hle := length_le_of_notMem hp h
  have hge := length_le_of_notMem hm h.symm
  exact (List.append_inj h (Nat.le_antisymm hle hge)).1

/-- A piece ends before a short line starts, or is that line. -/
theorem IsPiece.length_le {q : List α} (hc : IsPiece nl l) (hne : p ≠ []) (hp : AtLineStart nl p)
    (h : l ++ s = p ++ q) : l.length ≤ p.length := by
  obtain ⟨p', rfl⟩ := List.getLast?_eq_some_iff.mp (hp.resolve_left hne)
  have hlast := List.dropLast_append_getLast hc.ne_nil
  rw [← hlast, List.append_assoc, List.append_assoc] at h
  have hle := length_le_of_notMem hc.notMem_dropLast h
  rw [List.length_dropLast] at hle
  simp only [List.length_append, List.length_singleton]
  omega

/-- **A short line that has been read** is one of the pieces, at its place. -/
theorem Framed.exists_piece {q : List α} (h : Framed nl n closed pieces rest)
    (hstream : pieces.flatten ++ rest = p ++ (l ++ q)) (hp : AtLineStart nl p)
    (hl : IsShortLine nl n l) (hread : p.length < pieces.flatten.length) :
    ∃ before after, pieces = before ++ l :: after ∧ before.flatten = p := by
  induction pieces generalizing p with
  | nil => simp at hread
  | cons c pieces ih =>
    obtain ⟨⟨hc, hlen, hend⟩, hframed⟩ := h
    rw [List.flatten_cons, List.append_assoc] at hstream
    by_cases hnil : p = []
    · subst hnil
      refine ⟨[], pieces, ?_, rfl⟩
      obtain ⟨m, hm, rfl⟩ := hl.exists_eq
      have hshort := hl.length_le
      rw [List.length_append, List.length_singleton] at hshort
      rw [List.nil_append, List.append_assoc, List.singleton_append] at hstream
      by_cases hlast : c.getLast? = some nl
      · obtain ⟨m', hm', rfl⟩ := hc.eq_append hlast
        rw [List.append_assoc] at hstream
        rw [eq_of_append_eq hm' hm hstream, List.nil_append]
      · -- a piece without a terminator is as long as the buffer, or the stream ends
        have hle := length_le_of_notMem (hc.notMem hlast) hstream
        rcases hend with hlast' | hfull | ⟨-, hrest⟩
        · exact absurd hlast' hlast
        · omega
        · rw [hrest, List.append_nil] at hstream
          rw [hstream, List.length_append, List.length_cons] at hle
          omega
    · have hle := hc.length_le hnil hp hstream
      obtain ⟨p', rfl⟩ : c <+: p :=
        List.prefix_of_prefix_length_le (List.prefix_append c _) (hstream ▸ List.prefix_append p _)
          hle
      rw [List.append_assoc, List.append_cancel_left_eq] at hstream
      have hp' : AtLineStart nl p' := by
        by_cases hnil' : p' = []
        · exact .inl hnil'
        · right
          rw [← hp.resolve_left hnil, List.getLast?_append_of_ne_nil _ hnil']
      have hread' : p'.length < pieces.flatten.length := by simpa using hread
      obtain ⟨before, after, hpieces, hbefore⟩ := ih hframed hstream hp' hread'
      exact ⟨c :: before, after, by rw [hpieces]; rfl, by rw [List.flatten_cons, hbefore]⟩

/-! ### Read-ahead -/

/-- A piece that ends just before the buffer, in a part of the stream that is quiet. -/
theorem Quiet.settled {w x buffer q : List α} (h : Quiet nl n (x ++ (buffer ++ q))) (hx : x ≠ [])
    (pieces : List (List α)) : Settled nl n (pieces ++ [w ++ x]) buffer where
  quiet p l q' hbuffer hlast := by
    refine h (x ++ p) l (q' ++ q) (by simp [hbuffer]) ?_
    have hne : p ≠ [] := by
      rintro rfl
      simp at hlast
    rw [← hlast, List.getLast?_append_of_ne_nil _ hne]
  no_line_in_front hstart l q' hbuffer := by
    refine h x l (q' ++ q) (by simp [hbuffer]) ?_
    have hflatten : (pieces ++ [w ++ x]).flatten = pieces.flatten ++ w ++ x := by simp
    rw [hflatten] at hstart
    rcases hstart with hnil | hlast
    · simp [hx] at hnil
    · rwa [List.getLast?_append_of_ne_nil _ hx] at hlast

/-- **Behind a settled buffer** every short line of the stream has been read. -/
theorem Settled.exists_piece {buffer q : List α} (hs : Settled nl n pieces buffer)
    (h : Framed nl n closed pieces buffer) (hstream : pieces.flatten ++ buffer = p ++ (l ++ q))
    (hp : AtLineStart nl p) (hl : IsShortLine nl n l) :
    ∃ before after, pieces = before ++ l :: after ∧ before.flatten = p := by
  rcases Nat.lt_or_ge p.length pieces.flatten.length with hread | hle
  · exact h.exists_piece hstream hp hl hread
  · -- the line begins in the buffer
    obtain ⟨p', rfl⟩ : pieces.flatten <+: p :=
      List.prefix_of_prefix_length_le (List.prefix_append _ buffer)
        (hstream ▸ List.prefix_append p _) hle
    rw [List.append_assoc, List.append_cancel_left_eq] at hstream
    by_cases hnil : p' = []
    · subst hnil
      rw [List.append_nil] at hp
      exact absurd hl (hs.no_line_in_front hp l q hstream)
    · have hlast : p'.getLast? = some nl := by
        have hne : pieces.flatten ++ p' ≠ [] := by simp [hnil]
        rw [← hp.resolve_left hne, List.getLast?_append_of_ne_nil _ hnil]
      exact absurd hl (hs.quiet p' l q hstream hlast)

/-- The buffer is settled if every short line of the stream is one of the pieces. -/
theorem Settled.of_exists_piece {buffer : List α}
    (h : ∀ p l q, pieces.flatten ++ buffer = p ++ (l ++ q) → AtLineStart nl p →
      IsShortLine nl n l → ∃ before after, pieces = before ++ l :: after ∧ before.flatten = p) :
    Settled nl n pieces buffer := by
  -- a piece does not begin behind all pieces
  have hno (p l q : List α) (hbuffer : buffer = p ++ (l ++ q))
      (hstart : AtLineStart nl (pieces.flatten ++ p)) : ¬IsShortLine nl n l := by
    intro hl
    obtain ⟨before, after, hpieces, hbefore⟩ := h _ l q (by simp [hbuffer]) hstart hl
    obtain ⟨m, -, rfl⟩ := hl.exists_eq
    have hlength := congrArg (fun ps => ps.flatten.length) hpieces
    simp only [List.flatten_append, List.flatten_cons, List.length_append, hbefore,
      List.length_singleton] at hlength
    omega
  refine ⟨fun p l q hbuffer hlast => hno p l q hbuffer ?_, fun hstart l q hbuffer => ?_⟩
  · have hne : p ≠ [] := by
      rintro rfl
      simp at hlast
    right
    rwa [List.getLast?_append_of_ne_nil _ hne]
  · exact hno [] l q hbuffer (by simpa using hstart)

end Lines
