import ActionSheet.Definition
import ActionSheet.Proofs.Markup.Piece

/-!
# Texts that go on

A text is read from its front, and the question here is how much of what was found there hangs on
what comes later. The answer is: next to nothing. A piece that has been found whole is found in
every longer text (`Token.keepsFinding_next`), and so is a fault that lies two bytes or more before
the end. What remains open is a construct that the text breaks off in, and a run of text at its very
end, since that may go on.

For whole documents this means that a document which is the front of another has the same tree.
Where it ends, its root has closed; a text outside the root is passed over or refused, however long
it gets; and a root that has closed is never replaced, because a second one is refused.
-/

namespace ActionSheet.Markup

open Text

/-! ## Ends that were found -/

/-- The mark stands where the text was cut. -/
theorem eq_of_cut {mark s before after : List Char} (h : cut mark s = some (before, after)) :
    s = before ++ (mark ++ after) := by
  induction s generalizing before with
  | nil => cases h
  | cons c r ih =>
      rw [cut] at h
      split at h
      · next hp =>
          cases h
          obtain ⟨u, hu⟩ := List.isPrefixOf_iff_prefix.1 hp
          rw [← hu, List.drop_left]
          rfl
      · simp only [Option.map_eq_some_iff, keep, Prod.mk.injEq] at h
        obtain ⟨⟨b, a⟩, hb, rfl, rfl⟩ := h
        exact congrArg (c :: ·) (ih hb)

theorem cut_of_front {mark s before after : List Char} (h : cut mark s = some (before, after))
    (t : List Char) : cut mark (s ++ t) = some (before, after ++ t) := by
  induction s generalizing before with
  | nil => cases h
  | cons c r ih =>
      rw [cut] at h
      rw [List.cons_append, cut]
      split at h
      · next hp =>
          cases h
          have hpre := List.isPrefixOf_iff_prefix.1 hp
          have hlonger : mark.isPrefixOf (c :: (r ++ t)) = true :=
            List.isPrefixOf_iff_prefix.2 (hpre.trans (List.prefix_append (c :: r) t))
          rw [if_pos hlonger, ← List.cons_append, List.drop_append_of_le_length hpre.length_le]
      · next hp =>
          simp only [Option.map_eq_some_iff, keep, Prod.mk.injEq] at h
          obtain ⟨⟨b, a⟩, hb, rfl, rfl⟩ := h
          -- There is room for the mark further on, so it does not reach beyond the front.
          have hlen : mark.length ≤ (c :: r).length := by
            rw [eq_of_cut hb, List.length_cons, List.length_append, List.length_append]
            omega
          have hno : ¬mark.isPrefixOf (c :: (r ++ t)) = true := by
            intro hlonger
            exact hp (List.isPrefixOf_iff_prefix.2 (List.prefix_of_prefix_length_le
              (List.isPrefixOf_iff_prefix.1 hlonger) (List.prefix_append (c :: r) t) hlen))
          rw [if_neg hno, ih hb]
          rfl

theorem cutTag_of_front {quote : Option Char} {s before after : List Char}
    (h : cutTag quote s = some (before, after)) (t : List Char) :
    cutTag quote (s ++ t) = some (before, after ++ t) := by
  induction s generalizing quote before with
  | nil => cases h
  | cons c r ih =>
      rw [cutTag] at h
      rw [List.cons_append, cutTag]
      split at h
      · next hc =>
          cases h
          rw [if_pos hc]
      · next hc =>
          simp only [Option.map_eq_some_iff, keep, Prod.mk.injEq] at h
          obtain ⟨⟨b, a⟩, hb, rfl, rfl⟩ := h
          rw [if_neg hc, ih hb]
          rfl

theorem cutBalanced_of_front {depth : Nat} {s before after : List Char}
    (h : cutBalanced depth s = some (before, after)) (t : List Char) :
    cutBalanced depth (s ++ t) = some (before, after ++ t) := by
  induction s generalizing depth before with
  | nil => cases h
  | cons c r ih =>
      rw [cutBalanced] at h
      rw [List.cons_append, cutBalanced]
      split at h
      · next hc =>
          cases h
          rw [if_pos hc]
      · next hc =>
          simp only [Option.map_eq_some_iff, keep, Prod.mk.injEq] at h
          obtain ⟨⟨b, a⟩, hb, rfl, rfl⟩ := h
          rw [if_neg hc, ih hb]
          rfl

/-! ## Findings that stay -/

namespace Scan

/-- The same finding, with more text behind it. -/
def followedBy (t : List Char) : Scan → Scan
  | done => done
  | token x width rest => token x width (rest ++ t)
  | fault cause width => fault cause width

/-- A finding in a text of so many bytes that nothing after the text can change: a piece that ends
in the text, or a fault at least two bytes before its end. -/
def IsSettled (size : Nat) : Scan → Prop
  | done => False
  | token (.text _) _ rest => rest ≠ []
  | token _ _ _ => True
  | fault _ width => width + 2 ≤ size

theorem followedBy_after (t : List Char) (width : Nat) (x : Scan) :
    (x.after width).followedBy t = (x.followedBy t).after width := by
  cases x <;> rfl

theorem isSettled_after {size width : Nat} {x : Scan}
    (h : (x.after width).IsSettled (width + size)) : x.IsSettled size := by
  cases x with
  | done => exact h
  | token t w rest => cases t <;> exact h
  | fault cause w =>
      have hle : width + w + 2 ≤ width + size := h
      exact show w + 2 ≤ size by omega

end Scan

namespace Token

/-- What a scanner finds in a text it finds in every longer one, if it is settled. -/
def KeepsFinding (scan : List Char → Scan) (s : List Char) : Prop :=
  (scan s).IsSettled (byteLength s) → ∀ t, scan (s ++ t) = (scan s).followedBy t

theorem keepsFinding_upTo (mark : List Char) (begins : List Char → Bool) (x : Token)
    (cause : Cause) (s : List Char) :
    KeepsFinding (fun content => upTo mark content begins x cause) s := by
  intro h t
  dsimp only [upTo] at h ⊢
  cases hc : cut mark s with
  | none =>
      rw [hc] at h
      exact absurd (show byteLength s + 2 ≤ byteLength s from h) (by omega)
  | some p =>
      rw [cut_of_front hc]
      dsimp only
      split <;> rfl

theorem keepsFinding_scanComment (s : List Char) : KeepsFinding scanComment s := by
  intro h t
  cases s with
  | nil => exact absurd (show 0 + 2 ≤ 0 from h) (by omega)
  | cons c r =>
      have hkeep := keepsFinding_upTo "-->".toList (fun _ => c == '-') .comment .unclosedComment r
        (Scan.isSettled_after h) t
      rw [List.cons_append, scanComment, scanComment, Scan.followedBy_after]
      exact congrArg (Scan.after c.utf8Size) hkeep

theorem keepsFinding_scanDoctype (s : List Char) : KeepsFinding scanDoctype s := by
  intro h t
  rw [scanDoctype] at h
  rw [scanDoctype, scanDoctype]
  cases hc : cutBalanced 0 s with
  | none =>
      rw [hc] at h
      exact absurd (show byteLength s + 2 ≤ byteLength s from h) (by omega)
  | some p =>
      rw [cutBalanced_of_front hc]
      dsimp only
      split
      · rfl
      · split <;> rfl

theorem keepsFinding_scanClosing (s : List Char) : KeepsFinding scanClosing s := by
  intro h t
  rw [scanClosing] at h
  rw [scanClosing, scanClosing]
  cases hc : cutTag none s with
  | none =>
      rw [hc] at h
      exact absurd (show byteLength s + 2 ≤ byteLength s from h) (by omega)
  | some p =>
      rw [cutTag_of_front hc]
      rfl

theorem keepsFinding_scanOpening (s : List Char) : KeepsFinding scanOpening s := by
  intro h t
  rw [scanOpening] at h
  rw [scanOpening, scanOpening]
  cases hc : cutTag none s with
  | none =>
      rw [hc] at h
      exact absurd (show byteLength s + 2 ≤ byteLength s from h) (by omega)
  | some p =>
      rw [cutTag_of_front hc]
      rfl

theorem scanMarkup_bang {c : Char} (hd : c ≠ '[') (hc : c ≠ '-') (r : List Char) :
    scanMarkup ('!' :: c :: r) =
      if c = 'D' ∨ c = 'd' then scanDoctype ('!' :: c :: r) else .fault .unknownMarkup 0 := by
  unfold scanMarkup
  split
  · next h => exact absurd (List.cons.inj (List.cons.inj h).2).1 hd
  · next h => exact absurd (List.cons.inj (List.cons.inj h).2).1 hc
  · next h =>
      cases h
      rfl
  · next h => cases h
  · next h => cases h
  · next h => cases h
  · next hno _ _ _ => exact absurd rfl (hno c r)

/-- The character after the angle bracket, or the two after it, say which kind of markup it is, and
they are there in every finding that is settled. -/
theorem keepsFinding_scanMarkup (s : List Char) : KeepsFinding scanMarkup s := by
  intro h t
  cases s with
  | nil => exact absurd (show 0 + 2 ≤ 0 from h) (by omega)
  | cons c r =>
      by_cases hbang : c = '!'
      · subst hbang
        cases r with
        | nil => exact absurd (show 0 + 2 ≤ 1 from h) (by omega)
        | cons d r =>
            by_cases hcdata : d = '['
            · subst hcdata
              exact keepsFinding_upTo "]]>".toList "![CDATA[".toList.isPrefixOf .cdata
                .unclosedCdata ('!' :: '[' :: r) h t
            · by_cases hcomment : d = '-'
              · subst hcomment
                have hsize : byteLength ('!' :: '-' :: r) = 2 + byteLength r := by
                  show 1 + (1 + byteLength r) = _
                  omega
                have hkeep := keepsFinding_scanComment r (Scan.isSettled_after (hsize ▸ h)) t
                exact (congrArg (Scan.after 2) hkeep).trans (Scan.followedBy_after t 2 _).symm
              · rw [scanMarkup_bang hcdata hcomment] at h
                rw [List.cons_append, List.cons_append, scanMarkup_bang hcdata hcomment,
                  scanMarkup_bang hcdata hcomment]
                split at h
                · next hdoctype =>
                    rw [if_pos hdoctype, if_pos hdoctype]
                    exact keepsFinding_scanDoctype _ h t
                · next hdoctype =>
                    rw [if_neg hdoctype, if_neg hdoctype]
                    rfl
      · by_cases hquery : c = '?'
        · subst hquery
          exact keepsFinding_upTo "?>".toList (fun before => !before.isEmpty) .instruction
            .unclosedInstruction ('?' :: r) h t
        · by_cases hslash : c = '/'
          · subst hslash
            have hkeep := keepsFinding_scanClosing r (Scan.isSettled_after h) t
            exact (congrArg (Scan.after 1) hkeep).trans (Scan.followedBy_after t 1 _).symm
          · rw [scanMarkup_of_first hbang hquery hslash] at h
            rw [List.cons_append, scanMarkup_of_first hbang hquery hslash,
              scanMarkup_of_first hbang hquery hslash]
            exact keepsFinding_scanOpening _ h t

/-- A run that ends in a text ends at the same place in every longer one. -/
theorem takeWhile_of_front {p : Char → Bool} {s : List Char} (h : s.dropWhile p ≠ [])
    (t : List Char) :
    (s ++ t).takeWhile p = s.takeWhile p ∧ (s ++ t).dropWhile p = s.dropWhile p ++ t := by
  have hlen : (s.takeWhile p).length ≠ s.length := by
    intro heq
    have hsum := congrArg List.length (List.takeWhile_append_dropWhile (p := p) (l := s))
    rw [List.length_append] at hsum
    exact h (List.length_eq_zero_iff.1 (by omega))
  rw [List.takeWhile_append, List.dropWhile_append, if_neg hlen,
    if_neg (fun he => h (List.isEmpty_iff.1 he))]
  exact ⟨rfl, rfl⟩

theorem keepsFinding_scanText (s : List Char) : KeepsFinding scanText s := by
  intro h t
  obtain ⟨htake, hdrop⟩ := takeWhile_of_front (p := fun c => decide (c ≠ '<')) h t
  rw [scanText, scanText, htake, hdrop]
  rfl

theorem keepsFinding_scanPiece (s : List Char) : KeepsFinding scanPiece s := by
  intro h t
  cases s with
  | nil => exact False.elim h
  | cons c r =>
      rw [scanPiece] at h
      rw [List.cons_append, scanPiece, scanPiece]
      split at h
      · next hc =>
          have hsize : byteLength (c :: r) = 1 + byteLength r := by
            rw [hc]
            rfl
          have hkeep := keepsFinding_scanMarkup r (Scan.isSettled_after (hsize ▸ h)) t
          rw [if_pos hc, if_pos hc, Scan.followedBy_after, hkeep]
      · next hc =>
          rw [if_neg hc, if_neg hc]
          exact keepsFinding_scanText (c :: r) h t

/-- What is found at the front of a text is found at the front of every longer one, if it is
settled. -/
theorem keepsFinding_next (s : List Char) : KeepsFinding next s := by
  intro h t
  rw [next] at h
  have hsize : byteLength s =
      byteLength (s.takeWhile isBlank) + byteLength (s.dropWhile isBlank) := by
    rw [← byteLength_append, List.takeWhile_append_dropWhile]
  rw [hsize] at h
  have hpiece := Scan.isSettled_after h
  have hne : s.dropWhile isBlank ≠ [] := by
    intro hnil
    rw [hnil] at hpiece
    exact hpiece
  obtain ⟨htake, hdrop⟩ := takeWhile_of_front hne t
  rw [next, next, htake, hdrop, Scan.followedBy_after, keepsFinding_scanPiece _ hpiece]

end Token

/-! ## Documents that go on -/

namespace Growth

theorem Grows.root_eq_some {g g' : Growth} {e : Event} {root : Element} (h : Grows g e g')
    (hr : g.root = some root) : g'.root = some root := by
  have hattach : ∀ {g : Growth} {x : Element} {g' : Growth}, g.attach x = .ok g' →
      g.root = some root → g'.root = some root := by
    intro g x g' ha hr
    rcases attach_eq_ok ha with ⟨f, rest, -, rfl⟩ | ⟨-, hnone, -⟩
    · exact hr
    · exact absurd (hnone.symm.trans hr) nofun
  cases h with
  | start => exact hr
  | empty _ ha => exact hattach ha hr
  | finish _ ha => exact hattach ha hr
  | ignored => exact hr

end Growth

/-- Once the root has closed, nothing that follows gives the document another. -/
theorem eq_of_grow {trail : Trail Event} {g : Growth} {root e : Element}
    (hr : g.root = some root) (h : grow g trail = .ok e) : e = root := by
  induction trail generalizing g with
  | done =>
      cases Growth.finish_eq_ok h
      cases hr
      rfl
  | fault position cause => cases h
  | item x position rest ih =>
      rw [grow] at h
      split at h
      · cases h
      · next g' hs => exact ih ((Growth.step_eq_ok.1 hs).root_eq_some hr) h

namespace Stand

/-- How a text is read to its end: there is nothing left and the root has closed, or there is a
first token and the rest is read from where that leads. -/
theorem read_eq_ok {a : Stand} {position : Nat} {s : List Char} {e : Element}
    (h : a.read position s = .ok e) :
    (Token.next s = .done ∧ a.growth = ⟨[], some e⟩) ∨
      ∃ t width rest b, Token.next s = .token t width rest ∧ a.Takes t b ∧
        b.read (position + width) rest = .ok e := by
  rw [read, Token.trail_eq] at h
  cases hn : Token.next s with
  | done =>
      rw [hn] at h
      exact .inl ⟨rfl, Growth.finish_eq_ok h⟩
  | fault cause width =>
      rw [hn] at h
      cases h
  | token t width rest =>
      rw [hn] at h
      dsimp only [Trail.transform] at h
      cases hr : a.reader.step t with
      | error cause =>
          rw [hr] at h
          cases h
      | ok p =>
          rw [hr] at h
          dsimp only [grow] at h
          cases hg : a.growth.step p.1 with
          | error cause =>
              rw [hg] at h
              cases h
          | ok g =>
              rw [hg] at h
              exact .inr ⟨t, width, rest, ⟨p.2, g⟩, rfl, ⟨p.1, hr, hg⟩, h⟩

theorem Takes.eq_of_text {a b : Stand} {content : List Char} (h : a.Takes (.text content) b) :
    b = a := by
  obtain ⟨r, g⟩ := a
  obtain ⟨r', g'⟩ := b
  obtain ⟨e, hr, hg⟩ := h
  cases hr
  cases Growth.step_eq_ok.1 hg
  rfl

/-- From wherever reading stands: a text and a longer one that can both be read to the end have the
same root. -/
theorem read_append_eq {s : List Char} : ∀ {a : Stand} {position : Nat} {t : List Char}
    {e e' : Element}, a.read position s = .ok e → a.read position (s ++ t) = .ok e' → e' = e := by
  induction hlen : s.length using Nat.strongRecOn generalizing s with
  | ind n ih =>
      intro a position t e e' he he'
      rcases read_eq_ok he with ⟨-, hg⟩ | ⟨x, width, rest, b, hn, hx, hb⟩
      · exact eq_of_grow (by rw [hg]) he'
      · by_cases hset : (Token.next s).IsSettled (byteLength s)
        · have hlonger := Token.keepsFinding_next s hset t
          rw [hn] at hlonger
          rw [read_of_next hlonger hx] at he'
          exact ih _ (hlen ▸ Token.length_of_next hn) rfl hb he'
        · -- Only a text at the very end is not settled, and there the root has closed before it.
          rw [hn] at hset
          cases x with
          | text content =>
              have hrest : rest = [] := not_not.1 hset
              rw [hrest, hx.eq_of_text] at hb
              rcases read_eq_ok hb with ⟨-, hg⟩ | ⟨_, _, _, _, hnil, _⟩
              · exact eq_of_grow (by rw [hg]) he'
              · cases hnil
          | _ => exact absurd trivial hset

end Stand

theorem parse_eq_read (s : String) :
    parse s = Stand.read ⟨Reader.initial, Growth.initial⟩ 0 (withoutMark s.toList) := rfl

theorem withoutMark_append {s : List Char} (h : s ≠ []) (t : List Char) :
    withoutMark (s ++ t) = withoutMark s ++ t := by
  cases s with
  | nil => exact absurd rfl h
  | cons c r =>
      rw [List.cons_append]
      unfold withoutMark
      split
      · next heq =>
          cases heq
          rfl
      · next hno =>
          split
          · next heq =>
              cases heq
              exact absurd rfl (hno _)
          · rfl

theorem parse_append_eq {p q : String} {e e' : Element} (h : parse p = .ok e)
    (h' : parse (p ++ q) = .ok e') : e' = e := by
  rw [parse_eq_read] at h h'
  have hne : p.toList ≠ [] := by
    intro hnil
    rw [hnil, withoutMark, Stand.read_of_done rfl] at h
    · cases h
    · nofun
  rw [String.toList_append, withoutMark_append hne] at h'
  exact Stand.read_append_eq h h'

end ActionSheet.Markup

namespace ActionSheet

open Markup

/-- Cutting a text off, or going on with it, never gives it another meaning. Two documents of which
one is the front of the other have the same tree; so a front of a body that can be rendered is no
document at all, or it has the same rows and lacks the same arguments. -/
theorem front_has_same_meaning :
    (∀ (p q : String) (e e' : Element), parse p = .ok e → parse (p ++ q) = .ok e' → e = e') ∧
    ∀ (body : String) (identifying : List String) (names : Namespaces) (rendering : Rendering),
      renderBody body identifying names = .ok rendering →
      ∀ p q : String, body = p ++ q →
        (∃ fault, parse p = .error fault) ∨ renderBody p identifying names = .ok rendering := by
  refine ⟨fun p q e e' h h' => (parse_append_eq h h').symm, ?_⟩
  rintro _ identifying names rendering hbody p q rfl
  cases hp : parse p with
  | error fault => exact .inl ⟨fault, rfl⟩
  | ok e =>
      refine .inr ?_
      rw [renderBody_eq] at hbody ⊢
      cases hpq : parse (p ++ q) with
      | error fault =>
          rw [hpq] at hbody
          cases hbody
      | ok e' =>
          rw [hpq, parse_append_eq hp hpq] at hbody
          rw [hp]
          exact hbody

/-- A body with an argument and one without a type, and what may follow it. -/
def shortBody : String :=
  "<r xmlns:x='u'><x:Property Name='n' Type='t'><i/></x:Property><x:Property><i/></x:Property></r>"

def trailer : String := "\n<!--</r>--> "

theorem front_has_same_meaning_trailer :
    (∃ e e', parse shortBody = .ok e ∧ parse (shortBody ++ trailer) = .ok e' ∧ e = e') ∧
      ∃ rendering, renderBody (shortBody ++ trailer) ["a"] ⟨"u", "m"⟩ = .ok rendering ∧
        ((∃ fault, parse shortBody = .error fault) ∨
          renderBody shortBody ["a"] ⟨"u", "m"⟩ = .ok rendering) := by
  obtain ⟨e, he⟩ : ∃ e, parse shortBody = .ok e := exists_eq_ok (by decide +kernel)
  obtain ⟨e', he'⟩ : ∃ e, parse (shortBody ++ trailer) = .ok e := exists_eq_ok (by decide +kernel)
  obtain ⟨rendering, hr⟩ : ∃ r, renderBody (shortBody ++ trailer) ["a"] ⟨"u", "m"⟩ = .ok r :=
    exists_eq_ok (by decide +kernel)
  obtain ⟨same, cut⟩ := front_has_same_meaning
  exact ⟨⟨e, e', he, he', same _ _ e e' he he'⟩, rendering, hr,
    cut _ _ _ rendering hr shortBody trailer rfl⟩

end ActionSheet
