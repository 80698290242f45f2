import ActionSheet.Proofs.Markup.Run

/-!
# Pieces that are known to be there

The reader looks at nothing but what is left of a text, so a piece that stands at the front is read
the same whatever follows it. `Token.Reads` says that of a piece: the text is taken off whole and
the given token comes out. The lemmas below establish it for every kind of markup.

`Stand` puts the reader and the builder side by side, and `Passes` composes: a text that carries
one stand to another and a text that goes on from there are one text that does both. Positions are
part of the statement, so a passage leaves everything after it where it was.

Text between tags is the one thing whose end is not its own, since it runs on to the next tag. So
it is not a piece here; inside an element any part of it can be taken off (`passes_text`).
-/

namespace ActionSheet.Markup

open Text

/-! ## Finding the end of a piece -/

/-- Behind some characters a mark that ends in a character of its own does not overlap itself: it
begins among them only if it lies among them. -/
theorem not_isPrefixOf_append {m : List Char} {z : Char} (hz : z ∉ m) {before : List Char}
    (hne : before ≠ []) (hbefore : ¬(m ++ [z]) <:+: before) (rest : List Char) :
    (m ++ [z]).isPrefixOf (before ++ (m ++ [z]) ++ rest) = false := by
  cases hp : (m ++ [z]).isPrefixOf (before ++ (m ++ [z]) ++ rest) with
  | false => rfl
  | true =>
      have hpre := List.isPrefixOf_iff_prefix.1 hp
      rw [List.append_assoc] at hpre
      by_cases hlen : (m ++ [z]).length ≤ before.length
      · exact absurd
          (List.prefix_of_prefix_length_le hpre (List.prefix_append _ _) hlen).isInfix hbefore
      · -- The last character of the mark would stand where the mark itself has an earlier one.
        obtain ⟨u, hu⟩ := hpre
        have hpos := List.length_pos_iff.2 hne
        rw [List.length_append, List.length_singleton] at hlen
        have hlast : (m ++ [z] ++ u)[m.length]? = some z := by
          rw [List.append_assoc, List.getElem?_append_right (Nat.le_refl _), Nat.sub_self]
          rfl
        rw [hu, List.getElem?_append_right (by omega), List.append_assoc,
          List.getElem?_append_left (by omega)] at hlast
        exact absurd (List.mem_of_getElem? hlast) hz

/-- A mark that ends in a character of its own is found where it is written, if it did not occur
before. -/
theorem cut_append {m : List Char} {z : Char} (hz : z ∉ m) {before : List Char}
    (hbefore : ¬(m ++ [z]) <:+: before) (rest : List Char) :
    cut (m ++ [z]) (before ++ (m ++ [z]) ++ rest) = some (before, rest) := by
  induction before with
  | nil =>
      rw [List.nil_append]
      cases m with
      | nil =>
          rw [List.nil_append, List.cons_append, cut, if_pos (by simp)]
          rfl
      | cons c m =>
          rw [List.cons_append, List.cons_append, cut, if_pos (by simp)]
          simp
  | cons c b ih =>
      have hno : (m ++ [z]).isPrefixOf (c :: (b ++ (m ++ [z]) ++ rest)) = false :=
        not_isPrefixOf_append hz (List.cons_ne_nil c b) hbefore rest
      rw [List.cons_append, List.cons_append, cut, hno, if_neg Bool.false_ne_true,
        ih fun h => hbefore (h.trans (List.suffix_cons c b).isInfix)]
      rfl

/-- Characters that cannot begin a mark bring none in. -/
theorem not_isInfix_append {a : Char} {m front s : List Char} (hf : a ∉ front)
    (hs : ¬(a :: m) <:+: s) : ¬(a :: m) <:+: front ++ s := by
  induction front with
  | nil => exact hs
  | cons c front ih =>
      intro h
      rcases List.infix_cons_iff.1 h with hp | hi
      · exact hf ((List.cons_prefix_cons.1 hp).1 ▸ List.mem_cons_self)
      · exact ih (fun hmem => hf (List.mem_cons_of_mem _ hmem)) hi

/-- The quotation mark that is open after a run of characters, if no `>` outside quotation marks
ends the tag within it. -/
def quoteThrough (quote : Option Char) : List Char → Option (Option Char)
  | [] => some quote
  | c :: r => if c = '>' ∧ quote = none then none else quoteThrough (quoteAfter c quote) r

theorem quoteThrough_append {quote : Option Char} {s t : List Char} :
    quoteThrough quote (s ++ t) = (quoteThrough quote s).bind fun q => quoteThrough q t := by
  induction s generalizing quote with
  | nil => rfl
  | cons c s ih =>
      rw [List.cons_append, quoteThrough, quoteThrough]
      split
      · rfl
      · exact ih

theorem cutTag_append {quote : Option Char} {s : List Char} (h : quoteThrough quote s = some none)
    (rest : List Char) : cutTag quote (s ++ '>' :: rest) = some (s, rest) := by
  induction s generalizing quote with
  | nil =>
      cases h
      rfl
  | cons c s ih =>
      rw [quoteThrough] at h
      split at h
      · cases h
      · next hc =>
          rw [List.cons_append, cutTag, if_neg hc, ih h]
          rfl

namespace Token

/-- A text at the front is taken off as one token. -/
def Reads (s : List Char) (t : Token) : Prop :=
  ∀ rest, next (s ++ rest) = .token t (byteLength s) rest

theorem after_zero (x : Scan) : x.after 0 = x := by
  cases x with
  | done => rfl
  | token t w rest => rw [Scan.after, Nat.zero_add]
  | fault cause w => rw [Scan.after, Nat.zero_add]

theorem next_markup (s : List Char) : next ('<' :: s) = (scanMarkup s).after 1 :=
  after_zero _

theorem next_blanks {b : List Char} (hb : ∀ c ∈ b, isBlank c = true) (s : List Char) :
    next (b ++ s) = (next s).after (byteLength b) := by
  rw [next, next, List.dropWhile_append_of_pos hb, List.takeWhile_append_of_pos hb,
    byteLength_append]
  cases scanPiece (s.dropWhile isBlank) with
  | done => rfl
  | token t w rest => rw [Scan.after, Scan.after, Scan.after, Nat.add_assoc]
  | fault cause w => rw [Scan.after, Scan.after, Scan.after, Nat.add_assoc]

theorem trail_eq (position : Nat) (s : List Char) :
    trail position s =
      match next s with
      | .done => .done
      | .fault cause width => .fault (position + width) cause
      | .token t width rest => .item t (position + width) (trail (position + width) rest) := by
  rw [trail]
  split
  · next h => rw [h]
  · next h => rw [h]
  · next h => rw [h]

/-- What is passed over in front of a text moves its trail and changes nothing else. -/
theorem trail_of_after {s s' : List Char} {width : Nat} (h : next s' = (next s).after width)
    (position : Nat) : trail position s' = trail (position + width) s := by
  rw [trail_eq, trail_eq, h]
  cases next s with
  | done => rfl
  | fault cause w => simp only [Scan.after, Nat.add_assoc]
  | token t w rest => simp only [Scan.after, Nat.add_assoc]

theorem reads_comment {content : List Char} (h : ¬"-->".toList <:+: content) :
    Reads ("<!--".toList ++ content ++ "-->".toList) .comment := by
  intro rest
  have hcut : cut "-->".toList (content ++ "-->".toList ++ rest) = some (content, rest) :=
    cut_append (m := "--".toList) (by decide) h rest
  have hopen : "<!--".toList = ['<', '!', '-', '-'] := rfl
  have hwidth : byteLength "-->".toList = 3 := rfl
  rw [hopen, List.append_assoc, List.append_assoc, ← List.append_assoc content, List.cons_append,
    next_markup, List.cons_append, List.cons_append, List.cons_append, List.nil_append, scanMarkup,
    scanComment, upTo, hcut]
  refine congrArg (Scan.token _ · rest) ?_
  rw [byteLength_append, byteLength_append, hwidth]
  show 1 + (2 + (1 + (byteLength content + 3))) = 4 + (byteLength content + 3)
  omega

theorem reads_cdata {content : List Char} (h : ¬"]]>".toList <:+: content) :
    Reads ("<![CDATA[".toList ++ content ++ "]]>".toList) .cdata := by
  intro rest
  have hin : ¬"]]>".toList <:+: "![CDATA[".toList ++ content :=
    not_isInfix_append (a := ']') (by decide) h
  have hcut : cut "]]>".toList ("![CDATA[".toList ++ content ++ "]]>".toList ++ rest) =
      some ("![CDATA[".toList ++ content, rest) :=
    cut_append (m := "]]".toList) (by decide) hin rest
  have hscan : scanMarkup ("![CDATA[".toList ++ content ++ "]]>".toList ++ rest) =
      upTo "]]>".toList ("![CDATA[".toList ++ content ++ "]]>".toList ++ rest)
        "![CDATA[".toList.isPrefixOf .cdata .unclosedCdata := by
    rw [show "![CDATA[".toList = '!' :: '[' :: "CDATA[".toList from rfl, List.cons_append,
      List.cons_append, List.cons_append, List.cons_append, List.cons_append, List.cons_append,
      scanMarkup]
    rfl
  show next ('<' :: ("![CDATA[".toList ++ content ++ "]]>".toList ++ rest)) = _
  rw [next_markup, hscan, upTo, hcut]
  simp only [List.isPrefixOf_iff_prefix.2 (List.prefix_append "![CDATA[".toList content), if_true]
  refine congrArg (Scan.token _ · rest) ?_
  rw [byteLength_append, byteLength_append, byteLength_append]
  show 1 + (8 + byteLength content + 3) = 9 + byteLength content + 3
  omega

/-- An instruction ends at the first `?>` after its first character. -/
theorem reads_instruction {c : Char} {content : List Char} (hc : c ≠ '>')
    (h : ¬"?>".toList <:+: c :: content) :
    Reads ("<?".toList ++ c :: content ++ "?>".toList) .instruction := by
  intro rest
  have hin : ¬"?>".toList <:+: '?' :: c :: content := by
    intro hi
    rcases List.infix_cons_iff.1 hi with hp | hi
    · exact hc (List.cons_prefix_cons.1 (List.cons_prefix_cons.1 hp).2).1.symm
    · exact h hi
  have hcut : cut "?>".toList ('?' :: c :: content ++ "?>".toList ++ rest) =
      some ('?' :: c :: content, rest) :=
    cut_append (m := ['?']) (by decide) hin rest
  show next ('<' :: '?' :: (c :: content ++ "?>".toList ++ rest)) = _
  rw [next_markup, scanMarkup, ← List.cons_append, ← List.cons_append, upTo, hcut]
  refine congrArg (Scan.token _ · rest) ?_
  rw [byteLength_append, byteLength_append]
  show 1 + (1 + byteLength (c :: content) + 2) = 2 + byteLength (c :: content) + 2
  omega

/-! ## Tags -/

/-- A tag that closes its quotation marks and begins as no other markup does. -/
structure TagText (s : List Char) : Prop where
  quotes : quoteThrough none s = some none
  first : ∃ c r, s = c :: r ∧ c ≠ '!' ∧ c ≠ '?' ∧ c ≠ '/'

theorem scanMarkup_of_first {c : Char} (hb : c ≠ '!') (hq : c ≠ '?') (hs : c ≠ '/')
    (s : List Char) : scanMarkup (c :: s) = scanOpening (c :: s) := by
  unfold scanMarkup
  split
  · next h => exact absurd (List.cons.inj h).1 hb
  · next h => exact absurd (List.cons.inj h).1 hb
  · next h => exact absurd (List.cons.inj h).1 hb
  · next h => exact absurd (List.cons.inj h).1 hb
  · next h => exact absurd (List.cons.inj h).1 hq
  · next h => exact absurd (List.cons.inj h).1 hs
  · rfl

theorem scanMarkup_tag {s : List Char} (h : TagText s) (rest : List Char) :
    scanMarkup (s ++ '>' :: rest) =
      .token (if s.getLast? = some '/' then .empty s.dropLast else .opening s)
        (byteLength s + 1) rest := by
  obtain ⟨c, r, rfl, hb, hq, hs⟩ := h.first
  rw [List.cons_append, scanMarkup_of_first hb hq hs, ← List.cons_append, scanOpening,
    cutTag_append h.quotes]

theorem reads_opening {s : List Char} (h : TagText s) (hlast : s.getLast? ≠ some '/') :
    Reads ('<' :: s ++ ['>']) (.opening s) := by
  intro rest
  rw [List.append_assoc, List.cons_append, List.singleton_append, next_markup, scanMarkup_tag h,
    if_neg hlast]
  refine congrArg (Scan.token _ · rest) ?_
  rw [byteLength_append]
  show 1 + (byteLength s + 1) = 1 + byteLength s + 1
  omega

theorem reads_empty {s : List Char} (h : TagText s) :
    Reads ('<' :: s ++ "/>".toList) (.empty s) := by
  intro rest
  have hslash : TagText (s ++ ['/']) := by
    obtain ⟨c, r, rfl, hc⟩ := h.first
    exact ⟨by rw [quoteThrough_append, h.quotes]; rfl, c, r ++ ['/'], rfl, hc⟩
  have hs : '<' :: s ++ "/>".toList ++ rest = '<' :: (s ++ ['/'] ++ '>' :: rest) := by
    rw [List.cons_append, List.cons_append, List.append_assoc, List.append_assoc]
    rfl
  rw [hs, next_markup, scanMarkup_tag hslash, List.getLast?_concat, if_pos rfl,
    List.dropLast_concat]
  refine congrArg (Scan.token _ · rest) ?_
  rw [byteLength_append, byteLength_append]
  show 1 + (byteLength s + 1 + 1) = 1 + byteLength s + 2
  omega

theorem closingName_eq {s : List Char} (h : ∀ c, s.getLast? = some c → isBlank c = false) :
    closingName s = s := by
  rw [closingName]
  split
  · rfl
  · rw [trimEnd]
    cases hr : s.reverse with
    | nil => exact (List.reverse_eq_nil_iff.1 hr).symm
    | cons c r =>
        have hc : isBlank c = false := h c (by rw [← List.head?_reverse, hr]; rfl)
        rw [List.dropWhile_cons, hc, if_neg Bool.false_ne_true, ← hr, List.reverse_reverse]

theorem reads_closing {s : List Char} (h : quoteThrough none s = some none)
    (hlast : ∀ c, s.getLast? = some c → isBlank c = false) :
    Reads ("</".toList ++ s ++ ['>']) (.closing s) := by
  intro rest
  have hs : "</".toList ++ s ++ ['>'] ++ rest = '<' :: '/' :: (s ++ '>' :: rest) := by
    rw [List.append_assoc, List.append_assoc]
    rfl
  rw [hs, next_markup, scanMarkup, scanClosing, cutTag_append h]
  simp only [closingName_eq hlast]
  refine congrArg (Scan.token _ · rest) ?_
  rw [byteLength_append, byteLength_append]
  show 1 + (1 + (byteLength s + 1)) = 2 + byteLength s + 1
  omega

end Token

/-! ## Reader and builder side by side -/

/-- Where reading stands: what the reader knows and what has grown. -/
structure Stand where
  reader : Reader
  growth : Growth

namespace Stand

/-- What becomes of a text at a position, read from where reading stands. -/
def read (a : Stand) (position : Nat) (s : List Char) : Except Fault Element :=
  grow a.growth ((Token.trail position s).transform Reader.step a.reader)

/-- Reading a token moves on to another stand. -/
def Takes (a : Stand) (t : Token) (b : Stand) : Prop :=
  ∃ e, a.reader.step t = .ok (e, b.reader) ∧ a.growth.step e = .ok b.growth

/-- A text carries one stand to another, whatever follows it. -/
def Passes (a : Stand) (s : List Char) (b : Stand) : Prop :=
  ∀ position rest, a.read position (s ++ rest) = b.read (position + byteLength s) rest

theorem read_of_next {a b : Stand} {s rest : List Char} {t : Token} {width : Nat}
    (hn : Token.next s = .token t width rest) (ht : a.Takes t b) (position : Nat) :
    a.read position s = b.read (position + width) rest := by
  obtain ⟨e, hr, hg⟩ := ht
  rw [read, Token.trail_eq, hn]
  simp only [Trail.transform, hr, grow, hg]
  rfl

theorem read_of_done {a : Stand} {s : List Char} (hn : Token.next s = .done) (position : Nat) :
    a.read position s = a.growth.finish := by
  rw [read, Token.trail_eq, hn]
  rfl

theorem passes_nil (a : Stand) : a.Passes [] a := fun _ _ => rfl

theorem Passes.append {a b c : Stand} {s t : List Char} (hs : a.Passes s b) (ht : b.Passes t c) :
    a.Passes (s ++ t) c := by
  intro position rest
  rw [List.append_assoc, hs, ht, byteLength_append, Nat.add_assoc]

theorem passes_of_reads {a b : Stand} {s : List Char} {t : Token} (hs : Token.Reads s t)
    (ht : a.Takes t b) : a.Passes s b :=
  fun position rest => read_of_next (hs rest) ht position

theorem passes_blanks (a : Stand) {b : List Char} (hb : ∀ c ∈ b, isBlank c = true) :
    a.Passes b a := by
  intro position rest
  rw [read, read, Token.trail_of_after (Token.next_blanks hb rest)]

/-! ## Text inside an element -/

theorem takes_text {a : Stand} (ha : a.growth.stack ≠ []) (content : List Char) :
    a.Takes (.text content) a :=
  ⟨.text content, rfl, Growth.step_eq_ok.2 (.ignored rfl fun hs => absurd hs ha)⟩

theorem read_text_of_not_blank {a : Stand} (ha : a.growth.stack ≠ []) (position : Nat)
    {s : List Char} (hs : ∀ c ∈ s.head?, isBlank c = false) :
    a.read position s =
      a.read (position + byteLength (s.takeWhile (· ≠ '<'))) (s.dropWhile (· ≠ '<')) := by
  cases s with
  | nil => rfl
  | cons c r =>
      by_cases hc : c = '<'
      · rw [hc]
        rfl
      · have hb : isBlank c = false := hs c rfl
        have hn : Token.next (c :: r) = Token.scanText (c :: r) := by
          rw [Token.next, List.dropWhile_cons, List.takeWhile_cons, hb, if_neg Bool.false_ne_true,
            if_neg Bool.false_ne_true, Token.scanPiece, if_neg hc]
          exact Token.after_zero _
        exact read_of_next hn (takes_text ha _) position

/-- Inside an element, text is read to the next angle bracket and dropped. -/
theorem read_text {a : Stand} (ha : a.growth.stack ≠ []) (position : Nat) (s : List Char) :
    a.read position s =
      a.read (position + byteLength (s.takeWhile (· ≠ '<'))) (s.dropWhile (· ≠ '<')) := by
  have hblank : ∀ c ∈ s.takeWhile isBlank, isBlank c = true :=
    List.all_eq_true.1 List.all_takeWhile
  have hno : ∀ c ∈ s.takeWhile isBlank, decide (c ≠ '<') = true := by
    intro c hc
    refine decide_eq_true ?_
    rintro rfl
    exact absurd (hblank _ hc) (by decide)
  have hfirst : ∀ c ∈ (s.dropWhile isBlank).head?, isBlank c = false := by
    intro c hc
    have := List.head?_dropWhile_not isBlank s
    rw [Option.mem_def.1 hc] at this
    exact this
  have hstart := passes_blanks a hblank position (s.dropWhile isBlank)
  rw [List.takeWhile_append_dropWhile] at hstart
  have htake : s.takeWhile (· ≠ '<') =
      s.takeWhile isBlank ++ (s.dropWhile isBlank).takeWhile (· ≠ '<') := by
    rw [← List.takeWhile_append_of_pos hno, List.takeWhile_append_dropWhile]
  have hdrop : s.dropWhile (· ≠ '<') = (s.dropWhile isBlank).dropWhile (· ≠ '<') := by
    conv_lhs => rw [← List.takeWhile_append_dropWhile (p := isBlank) (l := s)]
    exact List.dropWhile_append_of_pos hno
  rw [hstart, read_text_of_not_blank ha _ hfirst, htake, hdrop, byteLength_append, Nat.add_assoc]

/-- Inside an element, any run of text can be taken off. -/
theorem passes_text {a : Stand} (ha : a.growth.stack ≠ []) {s : List Char} (hs : '<' ∉ s) :
    a.Passes s a := by
  intro position rest
  have hno : ∀ c ∈ s, decide (c ≠ '<') = true := by
    intro c hc
    refine decide_eq_true ?_
    rintro rfl
    exact hs hc
  rw [read_text ha position, List.takeWhile_append_of_pos hno, List.dropWhile_append_of_pos hno,
    read_text ha (position + byteLength s), byteLength_append, Nat.add_assoc]

end Stand

end ActionSheet.Markup
