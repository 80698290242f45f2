import ActionSheet.Markup.Fault
import ActionSheet.Text.Blank
import ActionSheet.Text.Utf8

/-!
# The pieces of a document

A document is read as a sequence of pieces: tags, text between them, and four kinds of markup that
is only passed over. `Token.next` takes the first piece off a text and says how many bytes it took;
nothing else decides where a piece ends, so the pieces of a text are found without knowing what
the pieces before them were.

The reader is lenient. A comment may hold `--`, an instruction and a document type may stand
anywhere, and inside a tag only quotation marks count: whatever stands between two of one kind,
an angle bracket included, belongs to the tag.
-/

namespace ActionSheet.Markup

open Text

/-- A piece of a document. -/
inductive Token where
  /-- Text up to the next piece, without the blanks around it. -/
  | text (content : List Char)
  | cdata
  | comment
  | instruction
  | doctype
  /-- A start tag, by what stands between its angle brackets. -/
  | opening (tag : List Char)
  /-- A tag that is also the end of its element, without the slash that says so. -/
  | empty (tag : List Char)
  /-- An end tag, by the name that it gives. -/
  | closing (name : List Char)
  deriving DecidableEq, Repr

/-- What the front of a text turns out to be. Widths are in bytes, and count everything that was
passed over. -/
inductive Scan where
  /-- Nothing but blanks. -/
  | done
  | token (t : Token) (width : Nat) (rest : List Char)
  | fault (cause : Cause) (width : Nat)

/-- The same finding, behind a run of that many bytes. -/
def Scan.after (width : Nat) : Scan → Scan
  | done => done
  | token t w rest => token t (width + w) rest
  | fault cause w => fault cause (width + w)

/-- A split of a text, for the text with one more character in front. -/
def keep (c : Char) (p : List Char × List Char) : List Char × List Char :=
  (c :: p.1, p.2)

/-- The text before and after the first occurrence of a mark. -/
def cut (mark : List Char) : List Char → Option (List Char × List Char)
  | [] => none
  | c :: r =>
    if mark.isPrefixOf (c :: r) then some ([], (c :: r).drop mark.length)
    else (cut mark r).map (keep c)

/-- The quotation mark that is open after a character. -/
def quoteAfter (c : Char) : Option Char → Option Char
  | some q => if c = q then none else some q
  | none => if c = '"' ∨ c = '\'' then some c else none

/-- The text before and after the first `>` that no quotation marks surround; `quote` is the mark
that is open. -/
def cutTag (quote : Option Char) : List Char → Option (List Char × List Char)
  | [] => none
  | c :: r =>
    if c = '>' ∧ quote = none then some ([], r)
    else (cutTag (quoteAfter c quote) r).map (keep c)

/-- How many brackets are open after a character. -/
def depthAfter (c : Char) (depth : Nat) : Nat :=
  if c = '<' then depth + 1 else if c = '>' then depth - 1 else depth

/-- The text before and after the `>` that closes the bracket which is open, with `depth` more of
them open inside it. -/
def cutBalanced (depth : Nat) : List Char → Option (List Char × List Char)
  | [] => none
  | c :: r =>
    if c = '>' ∧ depth = 0 then some ([], r)
    else (cutBalanced (depthAfter c depth) r).map (keep c)

namespace Token

/-- A construct that runs to a mark: the piece that it is, or the fault that it is when it does
not begin as it should or the mark is missing. -/
def upTo (mark : List Char) (content : List Char) (begins : List Char → Bool) (t : Token)
    (cause : Cause) : Scan :=
  match cut mark content with
  | none => .fault cause (byteLength content)
  | some (before, rest) =>
    let width := byteLength before + byteLength mark
    if begins before then .token t width rest else .fault cause width

/-- A comment, from the character after its `!-`. -/
def scanComment : List Char → Scan
  | [] => .fault .unclosedComment 0
  | c :: r => (upTo "-->".toList r (fun _ => c == '-') .comment .unclosedComment).after c.utf8Size

/-- A document type, from its `!`. -/
def scanDoctype (content : List Char) : Scan :=
  match cutBalanced 0 content with
  | none => .fault .unclosedDoctype (byteLength content)
  | some (before, rest) =>
    let width := byteLength before + 1
    if (before.take 8).map Char.toUpper ≠ "!DOCTYPE".toList then .fault .unclosedDoctype width
    else if (before.drop 8).all isBlank then .fault .namelessDoctype width
    else .token .doctype width rest

/-- The name that an end tag gives: blanks at its end do not belong to it, unless there is nothing
else. -/
def closingName (content : List Char) : List Char :=
  if content.all isBlank then content else trimEnd isBlank content

/-- An end tag, from the character after its slash. -/
def scanClosing (content : List Char) : Scan :=
  match cutTag none content with
  | none => .fault .unclosedTag (byteLength content)
  | some (before, rest) => .token (.closing (closingName before)) (byteLength before + 1) rest

/-- A start tag, from the character after its angle bracket. -/
def scanOpening (content : List Char) : Scan :=
  match cutTag none content with
  | none => .fault .unclosedTag (byteLength content)
  | some (before, rest) =>
    let t := if before.getLast? = some '/' then empty before.dropLast else opening before
    .token t (byteLength before + 1) rest

/-- A piece of markup, from the character after its angle bracket. -/
def scanMarkup : List Char → Scan
  | '!' :: '[' :: r =>
    upTo "]]>".toList ('!' :: '[' :: r) "![CDATA[".toList.isPrefixOf .cdata .unclosedCdata
  | '!' :: '-' :: r => (scanComment r).after 2
  | '!' :: c :: r =>
    if c = 'D' ∨ c = 'd' then scanDoctype ('!' :: c :: r) else .fault .unknownMarkup 0
  | ['!'] => .fault .unknownMarkup 0
  | '?' :: r =>
    upTo "?>".toList ('?' :: r) (fun before => !before.isEmpty) .instruction .unclosedInstruction
  | '/' :: r => (scanClosing r).after 1
  | content => scanOpening content

/-- Text, from its first character that is no blank. -/
def scanText (s : List Char) : Scan :=
  let run := s.takeWhile (· ≠ '<')
  .token (.text (trimEnd isBlank run)) (byteLength run) (s.dropWhile (· ≠ '<'))

/-- The first piece of a text that does not begin with a blank. -/
def scanPiece : List Char → Scan
  | [] => .done
  | c :: r => if c = '<' then (scanMarkup r).after 1 else scanText (c :: r)

/-- The first piece of a text. -/
def next (s : List Char) : Scan :=
  (scanPiece (s.dropWhile isBlank)).after (byteLength (s.takeWhile isBlank))

end Token

/-! ## Every piece takes something -/

theorem length_of_cut {mark s before after : List Char} (h : cut mark s = some (before, after)) :
    before.length + after.length ≤ s.length := by
  induction s generalizing before with
  | nil => cases h
  | cons c r ih =>
    rw [cut] at h
    split at h
    · cases h
      simp
    · simp only [Option.map_eq_some_iff, keep, Prod.mk.injEq] at h
      obtain ⟨⟨b, a⟩, hb, rfl, rfl⟩ := h
      have := ih hb
      dsimp only [List.length_cons] at this ⊢
      omega

theorem length_of_cutTag {q : Option Char} {s before after : List Char}
    (h : cutTag q s = some (before, after)) : after.length < s.length := by
  induction s generalizing q before with
  | nil => cases h
  | cons c r ih =>
    rw [cutTag] at h
    split at h
    · cases h
      simp
    · simp only [Option.map_eq_some_iff, keep, Prod.mk.injEq] at h
      obtain ⟨⟨b, a⟩, hb, _, rfl⟩ := h
      have := ih hb
      dsimp only [List.length_cons] at this ⊢
      omega

theorem length_of_cutBalanced {d : Nat} {s before after : List Char}
    (h : cutBalanced d s = some (before, after)) : after.length < s.length := by
  induction s generalizing d before with
  | nil => cases h
  | cons c r ih =>
    rw [cutBalanced] at h
    split at h
    · cases h
      simp
    · simp only [Option.map_eq_some_iff, keep, Prod.mk.injEq] at h
      obtain ⟨⟨b, a⟩, hb, _, rfl⟩ := h
      have := ih hb
      dsimp only [List.length_cons] at this ⊢
      omega

/-- A finding that leaves no more than `n` characters. -/
def Scan.LeavesAtMost (n : Nat) : Scan → Prop
  | .token _ _ rest => rest.length ≤ n
  | _ => True

theorem Scan.leavesAtMost_after {n w : Nat} {x : Scan} :
    (x.after w).LeavesAtMost n ↔ x.LeavesAtMost n := by
  cases x <;> simp [Scan.after, Scan.LeavesAtMost]

theorem Scan.LeavesAtMost.mono {n m : Nat} {x : Scan} (h : x.LeavesAtMost n) (hnm : n ≤ m) :
    x.LeavesAtMost m := by
  cases x <;> simp_all [Scan.LeavesAtMost]
  omega

namespace Token

theorem leavesAtMost_upTo (mark content : List Char) (begins : List Char → Bool) (t : Token)
    (cause : Cause) : (upTo mark content begins t cause).LeavesAtMost content.length := by
  unfold upTo
  split
  · trivial
  · next before rest h =>
    have := length_of_cut h
    dsimp only
    split
    · simp only [Scan.LeavesAtMost]
      omega
    · trivial

theorem leavesAtMost_scanComment (r : List Char) :
    (scanComment r).LeavesAtMost r.length := by
  unfold scanComment
  split
  · trivial
  · rw [Scan.leavesAtMost_after]
    exact (leavesAtMost_upTo ..).mono (by simp)

theorem leavesAtMost_scanDoctype (r : List Char) :
    (scanDoctype r).LeavesAtMost r.length := by
  unfold scanDoctype
  split
  · trivial
  · next h =>
    have := length_of_cutBalanced h
    dsimp only
    split
    · trivial
    · split
      · trivial
      · simp only [Scan.LeavesAtMost]
        omega

theorem leavesAtMost_scanClosing (r : List Char) :
    (scanClosing r).LeavesAtMost r.length := by
  unfold scanClosing
  split
  · trivial
  · next h =>
    have := length_of_cutTag h
    simp only [Scan.LeavesAtMost]
    omega

theorem leavesAtMost_scanOpening (r : List Char) :
    (scanOpening r).LeavesAtMost r.length := by
  unfold scanOpening
  split
  · trivial
  · next h =>
    have := length_of_cutTag h
    simp only [Scan.LeavesAtMost]
    omega

theorem leavesAtMost_scanMarkup (r : List Char) :
    (scanMarkup r).LeavesAtMost r.length := by
  unfold scanMarkup
  split
  · exact leavesAtMost_upTo ..
  · rw [Scan.leavesAtMost_after]
    exact (leavesAtMost_scanComment _).mono (by simp; omega)
  · split
    · exact leavesAtMost_scanDoctype _
    · trivial
  · trivial
  · exact leavesAtMost_upTo ..
  · rw [Scan.leavesAtMost_after]
    exact (leavesAtMost_scanClosing _).mono (by simp)
  · exact leavesAtMost_scanOpening _

theorem leavesAtMost_scanPiece {s : List Char} (hs : s ≠ []) :
    (scanPiece s).LeavesAtMost (s.length - 1) := by
  cases s with
  | nil => exact absurd rfl hs
  | cons c r =>
    rw [scanPiece]
    split
    · rw [Scan.leavesAtMost_after]
      exact leavesAtMost_scanMarkup r
    · next hc =>
      have := (List.dropWhile_suffix (l := r) fun x : Char => decide (x ≠ '<')).length_le
      simpa [scanText, Scan.LeavesAtMost, List.dropWhile_cons, hc] using this

/-- A piece is taken off the front of a text, so what is left is shorter. -/
theorem length_of_next {s rest : List Char} {t : Token} {w : Nat}
    (h : next s = .token t w rest) : rest.length < s.length := by
  have hs := (List.dropWhile_suffix (l := s) isBlank).length_le
  have hne : s.dropWhile isBlank ≠ [] := by
    intro hn
    rw [next, hn] at h
    cases h
  have hpos : 0 < (s.dropWhile isBlank).length := List.length_pos_iff.2 hne
  have hle : (next s).LeavesAtMost ((s.dropWhile isBlank).length - 1) := by
    rw [next, Scan.leavesAtMost_after]
    exact leavesAtMost_scanPiece hne
  rw [h] at hle
  simp only [Scan.LeavesAtMost] at hle
  omega

end Token

/-- The pieces of a text with the position after each, up to its end or to what is wrong with
it. -/
inductive Trail (α : Type) where
  | done
  | fault (position : Nat) (cause : Cause)
  | item (a : α) (position : Nat) (rest : Trail α)

/-- The pieces of a text that begins at a position. -/
def Token.trail (position : Nat) (s : List Char) : Trail Token :=
  match _h : Token.next s with
  | .done => .done
  | .fault cause width => .fault (position + width) cause
  | .token t width rest => .item t (position + width) (Token.trail (position + width) rest)
termination_by s.length
decreasing_by exact Token.length_of_next _h

end ActionSheet.Markup
