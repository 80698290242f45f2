import ActionSheet.Proofs.Markup.Continuation

/-!
# Texts that are refused

A text is refused at its first fault, and the position of a fault is what was read up to there. Two
things follow for a text that goes on. The position is never beyond the end of the text
(`Stand.RefusedAt.le`), and where two bytes or more are left behind it, nothing that comes later can
change the position or the cause (`Stand.RefusedAt.append`).

The two bytes are what a reader may look ahead: the end of a text leaves open a construct that breaks
off there, and also which kind of markup `<` or `<!` begins, and in each of these cases the fault is
reported at most one byte before the end. Everything else about a fault lies in front of it.

`RefusedAt` says how a text is refused, with one rule for each of the three ways: there is no piece
at its front, the piece is refused, or the piece is taken and the rest is refused.
-/

namespace ActionSheet.Markup

open Text

/-! ## How far a finding reaches -/

theorem eq_of_cutTag {quote : Option Char} {s before after : List Char}
    (h : cutTag quote s = some (before, after)) : s = before ++ '>' :: after := by
  induction s generalizing quote before with
  | nil => cases h
  | cons c r ih =>
      rw [cutTag] at h
      split at h
      · next hc =>
          cases h
          rw [hc.1]
          rfl
      · simp only [Option.map_eq_some_iff, keep, Prod.mk.injEq] at h
        obtain ⟨⟨b, a⟩, hb, rfl, rfl⟩ := h
        exact congrArg (c :: ·) (ih hb)

theorem eq_of_cutBalanced {depth : Nat} {s before after : List Char}
    (h : cutBalanced depth s = some (before, after)) : s = before ++ '>' :: after := by
  induction s generalizing depth before with
  | nil => cases h
  | cons c r ih =>
      rw [cutBalanced] at h
      split at h
      · next hc =>
          cases h
          rw [hc.1]
          rfl
      · simp only [Option.map_eq_some_iff, keep, Prod.mk.injEq] at h
        obtain ⟨⟨b, a⟩, hb, rfl, rfl⟩ := h
        exact congrArg (c :: ·) (ih hb)

theorem byteLength_angle (before after : List Char) :
    byteLength (before ++ '>' :: after) = byteLength before + 1 + byteLength after := by
  rw [byteLength_append, byteLength_cons, Nat.add_assoc]
  rfl

namespace Scan

/-- A finding in a text of so many bytes does not reach beyond it: a piece and what is left are the
whole text, and a fault is not behind its end. -/
def Within (size : Nat) : Scan → Prop
  | done => True
  | token _ width rest => width + byteLength rest = size
  | fault _ width => width ≤ size

theorem Within.after {size : Nat} {x : Scan} (h : x.Within size) (width : Nat) :
    (x.after width).Within (width + size) := by
  cases x with
  | done => trivial
  | token t w rest =>
      have heq : w + byteLength rest = size := h
      exact show width + w + byteLength rest = width + size by omega
  | fault cause w => exact Nat.add_le_add_left h width

end Scan

namespace Token

theorem within_upTo (mark content : List Char) (begins : List Char → Bool) (t : Token)
    (cause : Cause) : (upTo mark content begins t cause).Within (byteLength content) := by
  rw [upTo]
  cases hc : cut mark content with
  | none => exact Nat.le_refl _
  | some p =>
      have hsize := congrArg byteLength (eq_of_cut hc)
      rw [byteLength_append, byteLength_append] at hsize
      dsimp only
      split
      · exact show _ = _ by omega
      · exact show _ ≤ _ by omega

theorem within_scanComment (s : List Char) : (scanComment s).Within (byteLength s) := by
  cases s with
  | nil => exact Nat.le_refl _
  | cons c r => exact (within_upTo ..).after c.utf8Size

theorem within_scanDoctype (s : List Char) : (scanDoctype s).Within (byteLength s) := by
  rw [scanDoctype]
  cases hc : cutBalanced 0 s with
  | none => exact Nat.le_refl _
  | some p =>
      have hsize := congrArg byteLength (eq_of_cutBalanced hc)
      rw [byteLength_angle] at hsize
      dsimp only
      split
      · exact show _ ≤ _ by omega
      · split
        · exact show _ ≤ _ by omega
        · exact hsize.symm

theorem within_scanClosing (s : List Char) : (scanClosing s).Within (byteLength s) := by
  rw [scanClosing]
  cases hc : cutTag none s with
  | none => exact Nat.le_refl _
  | some p =>
      have hsize := congrArg byteLength (eq_of_cutTag hc)
      rw [byteLength_angle] at hsize
      exact hsize.symm

theorem within_scanOpening (s : List Char) : (scanOpening s).Within (byteLength s) := by
  rw [scanOpening]
  cases hc : cutTag none s with
  | none => exact Nat.le_refl _
  | some p =>
      have hsize := congrArg byteLength (eq_of_cutTag hc)
      rw [byteLength_angle] at hsize
      exact hsize.symm

theorem within_scanMarkup (s : List Char) : (scanMarkup s).Within (byteLength s) := by
  unfold scanMarkup
  split
  · exact within_upTo ..
  · next r =>
      have hsize : byteLength ('!' :: '-' :: r) = 2 + byteLength r := by
        show 1 + (1 + byteLength r) = _
        omega
      rw [hsize]
      exact (within_scanComment r).after 2
  · split
    · exact within_scanDoctype _
    · exact Nat.zero_le _
  · exact Nat.zero_le _
  · exact within_upTo ..
  · next r => exact (within_scanClosing r).after 1
  · exact within_scanOpening _

theorem within_scanText (s : List Char) : (scanText s).Within (byteLength s) := by
  have hsplit := congrArg byteLength
    (List.takeWhile_append_dropWhile (p := fun c => decide (c ≠ '<')) (l := s))
  rw [byteLength_append] at hsplit
  exact hsplit

theorem within_scanPiece (s : List Char) : (scanPiece s).Within (byteLength s) := by
  cases s with
  | nil => trivial
  | cons c r =>
      rw [scanPiece]
      split
      · next hc =>
          rw [hc]
          exact (within_scanMarkup r).after 1
      · exact within_scanText (c :: r)

theorem within_next (s : List Char) : (next s).Within (byteLength s) := by
  have hsplit := congrArg byteLength (List.takeWhile_append_dropWhile (p := isBlank) (l := s))
  rw [byteLength_append] at hsplit
  rw [next, ← hsplit]
  exact (within_scanPiece _).after _

theorem width_le_of_fault {s : List Char} {cause : Cause} {width : Nat}
    (h : next s = .fault cause width) : width ≤ byteLength s := by
  have hwithin := within_next s
  rw [h] at hwithin
  exact hwithin

theorem width_add_of_token {s rest : List Char} {t : Token} {width : Nat}
    (h : next s = .token t width rest) : width + byteLength rest = byteLength s := by
  have hwithin := within_next s
  rw [h] at hwithin
  exact hwithin

/-- A piece with something left behind it is the first piece of every longer text. -/
theorem next_append_of_width_lt {s rest : List Char} {x : Token} {width : Nat}
    (h : next s = .token x width rest) (hw : width < byteLength s) (t : List Char) :
    next (s ++ t) = .token x width (rest ++ t) := by
  have hsize := width_add_of_token h
  have hset : (next s).IsSettled (byteLength s) := by
    rw [h]
    cases x with
    | text content =>
        rintro rfl
        rw [byteLength_nil] at hsize
        omega
    | _ => trivial
  have hlonger := keepsFinding_next s hset t
  rwa [h] at hlonger

theorem next_append_of_fault {s : List Char} {cause : Cause} {width : Nat}
    (h : next s = .fault cause width) (hw : width + 2 ≤ byteLength s) (t : List Char) :
    next (s ++ t) = .fault cause width := by
  have hset : (next s).IsSettled (byteLength s) := by
    rw [h]
    exact hw
  have hlonger := keepsFinding_next s hset t
  rwa [h] at hlonger

end Token

/-! ## How a text is refused -/

namespace Stand

/-- A token is refused, by the reader or by the builder. -/
def Refuses (a : Stand) (t : Token) (cause : Cause) : Prop :=
  a.reader.step t = .error cause ∨
    ∃ e r, a.reader.step t = .ok (e, r) ∧ a.growth.step e = .error cause

/-- A text is refused after so many bytes. -/
inductive RefusedAt : Stand → List Char → Nat → Cause → Prop
  | fault {a : Stand} {s : List Char} {width : Nat} {cause : Cause} :
      Token.next s = .fault cause width → RefusedAt a s width cause
  | refused {a : Stand} {s rest : List Char} {t : Token} {width : Nat} {cause : Cause} :
      Token.next s = .token t width rest → a.Refuses t cause → RefusedAt a s width cause
  | later {a b : Stand} {s rest : List Char} {t : Token} {width n : Nat} {cause : Cause} :
      Token.next s = .token t width rest → a.Takes t b → RefusedAt b rest n cause →
      RefusedAt a s (width + n) cause

/-- What becomes of the first token: it is refused, or it is taken. -/
theorem takes_or_refuses (a : Stand) (t : Token) :
    (∃ b, a.Takes t b) ∨ ∃ cause, a.Refuses t cause := by
  cases hr : a.reader.step t with
  | error cause => exact .inr ⟨cause, .inl hr⟩
  | ok p =>
      cases hg : a.growth.step p.1 with
      | error cause => exact .inr ⟨cause, .inr ⟨p.1, p.2, hr, hg⟩⟩
      | ok g => exact .inl ⟨⟨p.2, g⟩, p.1, hr, hg⟩

theorem read_of_fault {a : Stand} {s : List Char} {width : Nat} {cause : Cause}
    (hn : Token.next s = .fault cause width) (position : Nat) :
    a.read position s = .error (.markup (position + width) cause) := by
  rw [read, Token.trail_eq, hn]
  rfl

theorem read_of_refused {a : Stand} {s rest : List Char} {t : Token} {width : Nat} {cause : Cause}
    (hn : Token.next s = .token t width rest) (ht : a.Refuses t cause) (position : Nat) :
    a.read position s = .error (.markup (position + width) cause) := by
  rw [read, Token.trail_eq, hn]
  dsimp only [Trail.transform]
  rcases ht with hr | ⟨e, r, hr, hg⟩
  · rw [hr]
    rfl
  · rw [hr]
    dsimp only [grow]
    rw [hg]

theorem RefusedAt.read_eq {a : Stand} {s : List Char} {n : Nat} {cause : Cause}
    (h : a.RefusedAt s n cause) (position : Nat) :
    a.read position s = .error (.markup (position + n) cause) := by
  induction h generalizing position with
  | fault hn => exact read_of_fault hn position
  | refused hn ht => exact read_of_refused hn ht position
  | later hn ht _ ih => rw [read_of_next hn ht, ih, Nat.add_assoc]

theorem finish_ne_markup (g : Growth) (position : Nat) (cause : Cause) :
    g.finish ≠ .error (.markup position cause) := by
  obtain ⟨stack, root⟩ := g
  cases stack with
  | cons f rest => nofun
  | nil => cases root <;> nofun

theorem exists_refusedAt {s : List Char} : ∀ {a : Stand} {position p : Nat} {cause : Cause},
    a.read position s = .error (.markup p cause) →
    ∃ n, p = position + n ∧ a.RefusedAt s n cause := by
  induction hlen : s.length using Nat.strongRecOn generalizing s with
  | ind _ ih =>
      intro a position p cause h
      cases hn : Token.next s with
      | done =>
          rw [read_of_done hn] at h
          exact absurd h (finish_ne_markup _ _ _)
      | fault c width =>
          rw [read_of_fault hn] at h
          cases h
          exact ⟨width, rfl, .fault hn⟩
      | token t width rest =>
          rcases a.takes_or_refuses t with ⟨b, hb⟩ | ⟨c, hc⟩
          · rw [read_of_next hn hb] at h
            obtain ⟨n, rfl, hrest⟩ := ih _ (hlen ▸ Token.length_of_next hn) rfl h
            exact ⟨width + n, Nat.add_assoc .., .later hn hb hrest⟩
          · rw [read_of_refused hn hc] at h
            cases h
            exact ⟨width, rfl, .refused hn hc⟩

/-! ## What a refusal depends on -/

theorem RefusedAt.le {a : Stand} {s : List Char} {n : Nat} {cause : Cause}
    (h : a.RefusedAt s n cause) : n ≤ byteLength s := by
  induction h with
  | fault hn => exact Token.width_le_of_fault hn
  | refused hn _ =>
      have hsize := Token.width_add_of_token hn
      omega
  | later hn _ _ ih =>
      have hsize := Token.width_add_of_token hn
      omega

/-- A text that is refused two bytes or more before its end is refused there however it goes on. -/
theorem RefusedAt.append {a : Stand} {s : List Char} {n : Nat} {cause : Cause}
    (h : a.RefusedAt s n cause) (hleft : n + 2 ≤ byteLength s) (t : List Char) :
    a.RefusedAt (s ++ t) n cause := by
  induction h with
  | fault hn => exact .fault (Token.next_append_of_fault hn hleft t)
  | refused hn hx => exact .refused (Token.next_append_of_width_lt hn (by omega) t) hx
  | later hn hx _ ih =>
      have hsize := Token.width_add_of_token hn
      exact .later (Token.next_append_of_width_lt hn (by omega) t) hx (ih (by omega))

end Stand

/-- Where a text is refused and what that depends on. The position is not beyond the end of the text,
not counting a byte order mark in front; and if two bytes or more are left behind it, every text that
begins with this one is refused at the same position for the same cause. -/
theorem parse_error_append {s : String} {position : Nat} {cause : Cause}
    (h : parse s = .error (.markup position cause)) :
    position ≤ byteLength (withoutMark s.toList) ∧
      (position + 2 ≤ byteLength (withoutMark s.toList) →
        ∀ t, parse (s ++ t) = .error (.markup position cause)) := by
  rw [parse_eq_read] at h
  obtain ⟨n, hposition, hrefused⟩ := Stand.exists_refusedAt h
  rw [Nat.zero_add] at hposition
  subst hposition
  refine ⟨hrefused.le, fun hleft t => ?_⟩
  have hne : s.toList ≠ [] := by
    intro hnil
    rw [hnil] at hleft
    exact absurd (show position + 2 ≤ 0 from hleft) (by omega)
  rw [parse_eq_read, String.toList_append, withoutMark_append hne,
    (hrefused.append hleft t.toList).read_eq, Nat.zero_add]

/-- A text with a byte order mark and characters of two bytes, in which an end tag does not match. -/
def mismatchedText : String :=
  "\uFEFF<ä p='>'>é<b></ä><![CDATA["

theorem parse_error_append_mismatched :
    parse mismatchedText = .error (.markup 20 (.mismatchedEnd "b" "ä")) ∧
      20 ≤ byteLength (withoutMark mismatchedText.toList) ∧
      20 + 2 ≤ byteLength (withoutMark mismatchedText.toList) ∧
      ∀ t, parse (mismatchedText ++ t) = .error (.markup 20 (.mismatchedEnd "b" "ä")) := by
  have h : parse mismatchedText = .error (.markup 20 (.mismatchedEnd "b" "ä")) := by
    decide +kernel
  have hleft : 20 + 2 ≤ byteLength (withoutMark mismatchedText.toList) := by
    decide +kernel
  obtain ⟨hle, hstays⟩ := parse_error_append h
  exact ⟨h, hle, hleft, hstays hleft⟩

/-- One byte is not enough, since it leaves open what `<!` begins. -/
example : parse "<!" = .error (.markup 1 .unknownMarkup) ∧
    parse ("<!" ++ "----><a/>") = .ok ⟨none, "a", [], []⟩ := by
  decide +kernel

end ActionSheet.Markup
