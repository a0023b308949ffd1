import Mathlib

/-!
# Redaction

Secrets in a text are replaced by a mark, one secret after another (`redact`),
and some characters are then dropped. What is left of several texts is read as
one.

A redacted text is made of pieces: characters that are kept, and words that are
masked. A replacement sees the characters of the marks as well; where no secret
can overlap a mark (`Apart`), it is one of the pieces (`render_mask`). So a secret
that is left stands in characters that are kept, and `Caught` says that the
replacements have seen it there.
-/

namespace Inferences.Redaction

variable {α : Type}

/-! ## Replacement -/

section

variable [DecidableEq α]

/-- The loop of a replacement, within a match that goes on for `skip` more. -/
def replace_from (pattern mark : List α) : Nat → List α → List α
  | _, [] => []
  | skip + 1, _ :: text => replace_from pattern mark skip text
  | 0, c :: text =>
    if pattern <+: c :: text then mark ++ replace_from pattern mark (pattern.length - 1) text
    else c :: replace_from pattern mark 0 text

/-- Every match of the pattern, from left to right, gives way to the mark. -/
def replace (pattern mark text : List α) : List α := replace_from pattern mark 0 text

/-- The text with all secrets replaced, one after the other. -/
def redact (secrets : List (List α)) (mark text : List α) : List α :=
  (secrets.filter (· ≠ [])).foldl (fun text secret => replace secret mark text) text

end

/-- The secret and the mark overlap in no text. -/
def Apart (secret mark : List α) : Prop :=
  (∀ rest ∈ mark.tails, rest ≠ [] → ¬ rest <+: secret ∧ ¬ secret <+: rest) ∧
    ∀ rest ∈ secret.tails, rest ≠ [] → ¬ rest <+: mark ∧ ¬ mark <+: rest

/-- In what is kept of the texts together, the secret only stands where it is in
    one piece in one of them. -/
def Caught (keep : α → Bool) (secret : List α) (texts : List (List α)) : Prop :=
  ∀ before after, texts.flatten.filter keep = before ++ secret ++ after →
    ∃ earlier start rest later, texts = earlier ++ (start ++ secret ++ rest) :: later ∧
      (earlier.flatten ++ start).filter keep = before

instance [DecidableEq α] (secret mark : List α) : Decidable (Apart secret mark) :=
  inferInstanceAs (Decidable ((∀ rest ∈ mark.tails, rest ≠ [] → ¬ rest <+: secret ∧
    ¬ secret <+: rest) ∧ ∀ rest ∈ secret.tails, rest ≠ [] → ¬ rest <+: mark ∧ ¬ mark <+: rest))

/-- One text that is kept as it is cuts no secret. -/
theorem caught_of_kept {keep : α → Bool} {text : List α} (h : ∀ c ∈ text, keep c = true)
    (secret : List α) : Caught keep secret [text] := by
  intro before after hsplit
  have htext : text = before ++ secret ++ after := by
    rw [← hsplit, List.flatten_singleton, List.filter_eq_self.2 h]
  refine ⟨[], before, after, [], by rw [htext, List.nil_append], ?_⟩
  refine List.filter_eq_self.2 fun c hc => h c ?_
  rw [htext, List.append_assoc]
  exact List.mem_append_left _ hc

/-! ## Pieces -/

/-- A character that is kept, or a word that is masked. -/
inductive Piece (α : Type)
  | kept (c : α)
  | masked (word : List α)
  deriving DecidableEq

namespace Piece

/-- What a piece stands for. -/
def raw : Piece α → List α
  | kept c => [c]
  | masked word => word

/-- What is shown of a piece. -/
def shown (mark : List α) : Piece α → List α
  | kept c => [c]
  | masked _ => mark

/-- Whether the piece is left when characters are dropped. -/
def left (keep : α → Bool) : Piece α → Bool
  | kept c => keep c
  | masked _ => true

end Piece

open Piece

/-- The text before the redaction. -/
def original (pieces : List (Piece α)) : List α := pieces.flatMap raw

/-- What is shown of a text. -/
def render (mark : List α) (pieces : List (Piece α)) : List α := pieces.flatMap (shown mark)

section

variable {mark : List α}

@[simp] theorem original_map_kept (text : List α) : original (text.map kept) = text := by
  induction text with
  | nil => rfl
  | cons c text ih => exact congrArg (c :: ·) ih

@[simp] theorem render_map_kept (text : List α) : render mark (text.map kept) = text := by
  induction text with
  | nil => rfl
  | cons c text ih => exact congrArg (c :: ·) ih

theorem original_append (pieces pieces' : List (Piece α)) :
    original (pieces ++ pieces') = original pieces ++ original pieces' :=
  List.flatMap_append

theorem render_append (pieces pieces' : List (Piece α)) :
    render mark (pieces ++ pieces') = render mark pieces ++ render mark pieces' :=
  List.flatMap_append

end

/-! ## Masks -/

section

variable [DecidableEq α] {pattern mark : List α} {pieces : List (Piece α)}

def mask_from (pattern : List α) : Nat → List (Piece α) → List (Piece α)
  | _, [] => []
  | skip + 1, _ :: pieces => mask_from pattern skip pieces
  | 0, piece :: pieces =>
    if pattern.map kept <+: piece :: pieces then
      masked pattern :: mask_from pattern (pattern.length - 1) pieces
    else piece :: mask_from pattern 0 pieces

/-- The pieces with the occurrences of the pattern masked. -/
def mask (pattern : List α) (pieces : List (Piece α)) : List (Piece α) :=
  mask_from pattern 0 pieces

/-- A match is skipped to its end. -/
theorem mask_from_skip (word : List (Piece α)) (pieces : List (Piece α)) :
    mask_from pattern word.length (word ++ pieces) = mask_from pattern 0 pieces := by
  induction word with
  | nil => rfl
  | cons piece word ih => exact ih

theorem replace_from_skip (word text : List α) :
    replace_from pattern mark word.length (word ++ text) = replace_from pattern mark 0 text := by
  induction word with
  | nil => rfl
  | cons c word ih => exact ih

/-- Where the pattern matches, it is masked. -/
theorem mask_match (hpattern : pattern ≠ []) (pieces : List (Piece α)) :
    mask pattern (pattern.map kept ++ pieces) = masked pattern :: mask pattern pieces := by
  cases pattern with
  | nil => exact absurd rfl hpattern
  | cons c word =>
    have hskip : mask_from (c :: word) (word.map kept).length (word.map kept ++ pieces) =
        mask_from (c :: word) 0 pieces := mask_from_skip (word.map kept) pieces
    rw [List.length_map] at hskip
    have hmatch : (c :: word).map kept <+: kept c :: (word.map kept ++ pieces) :=
      List.prefix_append ((c :: word).map kept) pieces
    rw [mask, List.map_cons, List.cons_append, mask_from, if_pos hmatch]
    exact congrArg (masked (c :: word) :: ·) hskip

theorem replace_match (hpattern : pattern ≠ []) (text : List α) :
    replace pattern mark (pattern ++ text) = mark ++ replace pattern mark text := by
  cases pattern with
  | nil => exact absurd rfl hpattern
  | cons c word =>
    have hskip : replace_from (c :: word) mark word.length (word ++ text) =
        replace_from (c :: word) mark 0 text := replace_from_skip word text
    have hmatch : c :: word <+: c :: (word ++ text) := List.prefix_append (c :: word) text
    rw [replace, List.cons_append, replace_from, if_pos hmatch]
    exact congrArg (mark ++ ·) hskip

theorem mask_cons {piece : Piece α} (h : ¬ pattern.map kept <+: piece :: pieces) :
    mask pattern (piece :: pieces) = piece :: mask pattern pieces := by
  rw [mask, mask_from, if_neg h]
  rfl

theorem replace_cons {c : α} {text : List α} (h : ¬ pattern <+: c :: text) :
    replace pattern mark (c :: text) = c :: replace pattern mark text := by
  rw [replace, replace_from, if_neg h]
  rfl

/-- A list of pieces, match by match. -/
theorem mask_induction {motive : List (Piece α) → Prop} (hpattern : pattern ≠ [])
    (nil : motive []) (hit : ∀ pieces, motive pieces → motive (pattern.map kept ++ pieces))
    (miss : ∀ piece pieces, ¬ pattern.map kept <+: piece :: pieces → motive pieces →
      motive (piece :: pieces)) (pieces : List (Piece α)) : motive pieces := by
  induction hlength : pieces.length using Nat.strong_induction_on generalizing pieces with
  | _ n ih =>
    cases pieces with
    | nil => exact nil
    | cons piece rest =>
      by_cases hmatch : pattern.map kept <+: piece :: rest
      · obtain ⟨after, hafter⟩ := hmatch
        have hshorter : after.length < n := by
          have := congrArg List.length hafter
          have := List.length_pos_iff.2 hpattern
          simp only [List.length_append, List.length_map] at *
          omega
        rw [← hafter]
        exact hit after (ih after.length hshorter after rfl)
      · exact miss piece rest hmatch (ih rest.length (by rw [← hlength]; simp) rest rfl)

theorem original_mask (hpattern : pattern ≠ []) (pieces : List (Piece α)) :
    original (mask pattern pieces) = original pieces := by
  induction pieces using mask_induction hpattern with
  | nil => rfl
  | hit pieces ih =>
    rw [mask_match hpattern, original_append, original_map_kept, ← ih]
    rfl
  | miss piece pieces h ih =>
    rw [mask_cons h]
    exact congrArg (piece.raw ++ ·) ih

/-- Kept characters at the start of what is masked were there. -/
theorem prefix_of_mask (hpattern : pattern ≠ []) {text : List α} {pieces : List (Piece α)}
    (h : text.map kept <+: mask pattern pieces) : text.map kept <+: pieces := by
  induction pieces using mask_induction hpattern generalizing text with
  | nil => exact h
  | hit pieces ih =>
    rw [mask_match hpattern] at h
    cases text with
    | nil => exact List.nil_prefix
    | cons c text => cases (List.cons_prefix_cons.1 h).1
  | miss piece pieces hmiss ih =>
    rw [mask_cons hmiss] at h
    cases text with
    | nil => exact List.nil_prefix
    | cons c text =>
      obtain ⟨hpiece, htext⟩ := List.cons_prefix_cons.1 h
      exact List.cons_prefix_cons.2 ⟨hpiece, ih htext⟩

/-- Masking puts no kept characters together. -/
theorem infix_of_mask (hpattern : pattern ≠ []) {text : List α} {pieces : List (Piece α)}
    (h : text.map kept <:+: mask pattern pieces) : text.map kept <:+: pieces := by
  cases text with
  | nil => exact List.nil_infix
  | cons c text =>
    induction pieces using mask_induction hpattern with
    | nil => exact h
    | hit pieces ih =>
      rw [mask_match hpattern] at h
      rcases List.infix_cons_iff.1 h with hstart | hrest
      · cases (List.cons_prefix_cons.1 hstart).1
      · exact (ih hrest).trans (List.suffix_append _ _).isInfix
    | miss piece pieces hmiss ih =>
      rw [mask_cons hmiss] at h
      rcases List.infix_cons_iff.1 h with hstart | hrest
      · obtain ⟨hpiece, htext⟩ := List.cons_prefix_cons.1 hstart
        exact (List.cons_prefix_cons.2 ⟨hpiece, prefix_of_mask hpattern htext⟩).isInfix
      · exact (ih hrest).trans (List.suffix_cons _ _).isInfix

/-- What is masked is not there any more. -/
theorem not_infix_mask (hpattern : pattern ≠ []) (pieces : List (Piece α)) :
    ¬ pattern.map kept <:+: mask pattern pieces := by
  have hkept : pattern.map (kept : α → Piece α) ≠ [] := by simpa using hpattern
  induction pieces using mask_induction hpattern with
  | nil => exact fun h => hkept (List.infix_nil.1 h)
  | hit pieces ih =>
    rw [mask_match hpattern]
    intro h
    rcases List.infix_cons_iff.1 h with hstart | hrest
    · cases pattern with
      | nil => exact hpattern rfl
      | cons c pattern => cases (List.cons_prefix_cons.1 hstart).1
    · exact ih hrest
  | miss piece pieces hmiss ih =>
    rw [mask_cons hmiss]
    intro h
    rcases List.infix_cons_iff.1 h with hstart | hrest
    · cases pattern with
      | nil => exact hpattern rfl
      | cons c pattern =>
        obtain ⟨hpiece, htext⟩ := List.cons_prefix_cons.1 hstart
        exact hmiss (List.cons_prefix_cons.2 ⟨hpiece, prefix_of_mask hpattern htext⟩)
    · exact ih hrest

end

/-! ## What is shown -/

section

variable {secret mark : List α}

theorem Apart.starts (h : Apart secret mark) {rest : List α} (hrest : rest <:+ mark)
    (hne : rest ≠ []) (text : List α) : ¬ secret <+: rest ++ text := by
  obtain ⟨hlong, hshort⟩ := h.1 rest ((List.mem_tails _ _).2 hrest) hne
  intro hstart
  rcases List.prefix_or_prefix_of_prefix hstart (List.prefix_append rest text) with h | h
  · exact hshort h
  · exact hlong h

theorem Apart.ends (h : Apart secret mark) {rest : List α} (hrest : rest <:+ secret)
    (hne : rest ≠ []) (text : List α) : ¬ rest <+: mark ++ text := by
  obtain ⟨hlong, hshort⟩ := h.2 rest ((List.mem_tails _ _).2 hrest) hne
  intro hstart
  rcases List.prefix_or_prefix_of_prefix hstart (List.prefix_append mark text) with h | h
  · exact hlong h
  · exact hshort h

/-- The end of a secret that is shown is in kept characters. -/
theorem prefix_of_render (h : Apart secret mark) {rest : List α} {pieces : List (Piece α)}
    (hrest : rest <:+ secret) (hshown : rest <+: render mark pieces) :
    rest.map kept <+: pieces := by
  induction pieces generalizing rest with
  | nil =>
    obtain rfl := List.prefix_nil.1 hshown
    exact List.nil_prefix
  | cons piece pieces ih =>
    cases rest with
    | nil => exact List.nil_prefix
    | cons c rest =>
      cases piece with
      | kept d =>
        obtain ⟨rfl, hrest'⟩ := List.cons_prefix_cons.1 hshown
        exact List.cons_prefix_cons.2 ⟨rfl, ih ((List.suffix_cons _ _).trans hrest) hrest'⟩
      | masked word => exact absurd hshown (h.ends hrest (List.cons_ne_nil _ _) _)

/-- A secret that is shown stands in kept characters. -/
theorem infix_of_render (h : Apart secret mark) (hsecret : secret ≠ [])
    {pieces : List (Piece α)} (hshown : secret <:+: render mark pieces) :
    secret.map kept <:+: pieces := by
  induction pieces with
  | nil => exact absurd (List.infix_nil.1 hshown) hsecret
  | cons piece pieces ih =>
    cases piece with
    | kept c =>
      rcases List.infix_cons_iff.1 hshown with hstart | hlater
      · exact (prefix_of_render h List.suffix_rfl hstart : _ <+: kept c :: pieces).isInfix
      · exact (ih hlater).trans (List.suffix_cons _ _).isInfix
    | masked word =>
      -- past the mark, since it starts nowhere in it
      have hpast : ∀ rest, rest <:+ mark → secret <:+: rest ++ render mark pieces →
          secret <:+: render mark pieces := by
        intro rest
        induction rest with
        | nil => exact fun _ hinfix => hinfix
        | cons c rest ih =>
          intro hmark hinfix
          rcases List.infix_cons_iff.1 hinfix with hstart | hlater
          · exact absurd hstart (h.starts hmark (List.cons_ne_nil _ _) _)
          · exact ih ((List.suffix_cons _ _).trans hmark) hlater
      exact (ih (hpast mark List.suffix_rfl hshown)).trans (List.suffix_cons _ _).isInfix

variable [DecidableEq α]

theorem replace_mark (h : Apart secret mark) (text : List α) :
    replace secret mark (mark ++ text) = mark ++ replace secret mark text := by
  have hpast : ∀ rest, rest <:+ mark →
      replace secret mark (rest ++ text) = rest ++ replace secret mark text := by
    intro rest
    induction rest with
    | nil => exact fun _ => rfl
    | cons c rest ih =>
      intro hmark
      have hmiss : ¬ secret <+: c :: (rest ++ text) := h.starts hmark (List.cons_ne_nil _ _) text
      rw [List.cons_append, replace_cons hmiss, ih ((List.suffix_cons _ _).trans hmark)]
      rfl
  exact hpast mark List.suffix_rfl

/-- A replacement in what is shown is a replacement in the pieces. -/
theorem render_mask (h : Apart secret mark) (hsecret : secret ≠ []) (pieces : List (Piece α)) :
    render mark (mask secret pieces) = replace secret mark (render mark pieces) := by
  induction pieces using mask_induction hsecret with
  | nil => rfl
  | hit pieces ih =>
    rw [mask_match hsecret, render_append, render_map_kept, replace_match hsecret, ← ih]
    rfl
  | miss piece pieces hmiss ih =>
    rw [mask_cons hmiss]
    cases piece with
    | kept c =>
      have hshown : ¬ secret <+: c :: render mark pieces :=
        fun hstart => hmiss (prefix_of_render h List.suffix_rfl hstart)
      change c :: render mark (mask secret pieces) = replace secret mark (c :: render mark pieces)
      rw [replace_cons hshown, ih]
    | masked word =>
      change mark ++ render mark (mask secret pieces) =
        replace secret mark (mark ++ render mark pieces)
      rw [replace_mark h, ih]

end

/-! ## One secret after another -/

section

variable {secrets : List (List α)} {mark : List α}

theorem mem_secrets {secret : List α} :
    secret ∈ secrets.filter (· ≠ []) ↔ secret ∈ secrets ∧ secret ≠ [] := by
  simp

variable [DecidableEq α]

/-- The pieces with the occurrences of all secrets masked. -/
def mask_all (secrets : List (List α)) (pieces : List (Piece α)) : List (Piece α) :=
  (secrets.filter (· ≠ [])).foldl (fun pieces secret => mask secret pieces) pieces

theorem original_mask_all (secrets : List (List α)) (text : List α) :
    original (mask_all secrets (text.map kept)) = text := by
  have hfold : ∀ (patterns : List (List α)) (pieces : List (Piece α)),
      (∀ pattern ∈ patterns, pattern ≠ []) →
      original (patterns.foldl (fun pieces secret => mask secret pieces) pieces) =
        original pieces := by
    intro patterns
    induction patterns with
    | nil => exact fun _ _ => rfl
    | cons pattern patterns ih =>
      intro pieces hne
      obtain ⟨hpattern, hpatterns⟩ := List.forall_mem_cons.1 hne
      exact (ih _ hpatterns).trans (original_mask hpattern pieces)
  rw [mask_all, hfold _ _ fun pattern h => (mem_secrets.1 h).2, original_map_kept]

theorem render_mask_all (h : ∀ secret ∈ secrets, secret ≠ [] → Apart secret mark)
    (text : List α) :
    render mark (mask_all secrets (text.map kept)) = redact secrets mark text := by
  have hfold : ∀ (patterns : List (List α)) (pieces : List (Piece α)),
      (∀ pattern ∈ patterns, pattern ≠ [] ∧ Apart pattern mark) →
      render mark (patterns.foldl (fun pieces secret => mask secret pieces) pieces) =
        patterns.foldl (fun text secret => replace secret mark text) (render mark pieces) := by
    intro patterns
    induction patterns with
    | nil => exact fun _ _ => rfl
    | cons pattern patterns ih =>
      intro pieces hpatterns
      obtain ⟨⟨hpattern, hapart⟩, hrest⟩ := List.forall_mem_cons.1 hpatterns
      rw [List.foldl_cons, List.foldl_cons, ih _ hrest, render_mask hapart hpattern]
  rw [mask_all, redact, hfold, render_map_kept]
  intro pattern hmem
  obtain ⟨hpattern, hne⟩ := mem_secrets.1 hmem
  exact ⟨hne, h pattern hpattern hne⟩

theorem not_infix_mask_all {secret : List α} (hsecret : secret ∈ secrets) (hne : secret ≠ [])
    (pieces : List (Piece α)) : ¬ secret.map kept <:+: mask_all secrets pieces := by
  have hkept : ∀ (patterns : List (List α)) (pieces : List (Piece α)),
      (∀ pattern ∈ patterns, pattern ≠ []) →
      secret.map kept <:+: patterns.foldl (fun pieces secret => mask secret pieces) pieces →
      secret.map kept <:+: pieces := by
    intro patterns
    induction patterns with
    | nil => exact fun _ _ h => h
    | cons pattern patterns ih =>
      intro pieces hpatterns h
      obtain ⟨hpattern, hrest⟩ := List.forall_mem_cons.1 hpatterns
      exact infix_of_mask hpattern (ih _ hrest h)
  have hgone : ∀ (patterns : List (List α)) (pieces : List (Piece α)),
      (∀ pattern ∈ patterns, pattern ≠ []) → secret ∈ patterns →
      ¬ secret.map kept <:+: patterns.foldl (fun pieces secret => mask secret pieces) pieces := by
    intro patterns
    induction patterns with
    | nil => exact fun _ _ h => absurd h List.not_mem_nil
    | cons pattern patterns ih =>
      intro pieces hpatterns hmem
      obtain ⟨hpattern, hrest⟩ := List.forall_mem_cons.1 hpatterns
      rcases List.mem_cons.1 hmem with rfl | hmem
      · exact fun h => not_infix_mask hpattern pieces (hkept patterns _ hrest h)
      · exact ih _ hrest hmem
  exact hgone _ _ (fun pattern h => (mem_secrets.1 h).2) (mem_secrets.2 ⟨hsecret, hne⟩)

end

/-! ## Characters that are dropped -/

section

variable {keep : α → Bool} {mark : List α}

/-- The characters are dropped from the pieces, as marks keep all of theirs. -/
theorem render_filter (hmark : ∀ c ∈ mark, keep c = true) (pieces : List (Piece α)) :
    render mark (pieces.filter (left keep)) = (render mark pieces).filter keep := by
  induction pieces with
  | nil => rfl
  | cons piece pieces ih =>
    cases piece with
    | kept c =>
      change render mark (List.filter _ _) = (c :: render mark pieces).filter keep
      cases hc : keep c with
      | true =>
        rw [List.filter_cons_of_pos hc, List.filter_cons_of_pos (by exact hc), ← ih]
        rfl
      | false =>
        rw [List.filter_cons_of_neg (by simp [left, hc]), List.filter_cons_of_neg (by simp [hc]),
          ih]
    | masked word =>
      change mark ++ render mark (pieces.filter (left keep)) =
        (mark ++ render mark pieces).filter keep
      rw [List.filter_append, List.filter_eq_self.2 hmark, ih]

/-- Pieces that are dropped have nothing to keep. -/
theorem original_dropped {pieces : List (Piece α)}
    (h : ∀ piece ∈ pieces, ¬ left keep piece = true) :
    (original pieces).filter keep = [] := by
  induction pieces with
  | nil => rfl
  | cons piece pieces ih =>
    obtain ⟨hpiece, hpieces⟩ := List.forall_mem_cons.1 h
    cases piece with
    | kept c =>
      have hpiece : ¬ keep c = true := hpiece
      change (c :: original pieces).filter keep = []
      rw [List.filter_cons_of_neg hpiece, ih hpieces]
    | masked word => exact absurd rfl hpiece

/-- What is left of the pieces starts with the text, and so does what is kept of
    the original. -/
theorem original_left {text : List α} {pieces after : List (Piece α)}
    (h : pieces.filter (left keep) = text.map kept ++ after) :
    ∃ rest, (original pieces).filter keep = text ++ rest := by
  induction text generalizing pieces with
  | nil => exact ⟨_, rfl⟩
  | cons c text ih =>
    obtain ⟨dropped, pieces, rfl, hdropped, hc, hrest⟩ := List.filter_eq_cons_iff.1 h
    obtain ⟨rest, hrest⟩ := ih hrest
    refine ⟨rest, ?_⟩
    rw [original_append, List.filter_append, original_dropped hdropped]
    change (c :: original pieces).filter keep = _
    rw [List.filter_cons_of_pos (by exact hc), hrest]
    rfl

/-- The text is in one piece where the original starts with it, too. -/
theorem prefix_of_left {text : List α} {pieces after : List (Piece α)} {rest : List α}
    (h : pieces.filter (left keep) = text.map kept ++ after)
    (horiginal : original pieces = text ++ rest) : text.map kept <+: pieces := by
  induction text generalizing pieces with
  | nil => exact List.nil_prefix
  | cons c text ih =>
    obtain ⟨dropped, pieces, rfl, hdropped, hc, hleft⟩ := List.filter_eq_cons_iff.1 h
    cases dropped with
    | nil =>
      have hrest : original pieces = text ++ rest := (List.cons.inj horiginal).2
      exact List.cons_prefix_cons.2 ⟨rfl, ih hleft hrest⟩
    | cons piece dropped =>
      -- the first piece is dropped, and is the first character of the text
      cases piece with
      | kept d =>
        obtain rfl : d = c := (List.cons.inj horiginal).1
        exact absurd hc (hdropped _ (.head _))
      | masked word => exact absurd rfl (hdropped (masked word) (.head _))

/-- Two starts of a text after which something is kept are one if what is kept of
    them is the same. -/
theorem start_unique {start start' rest rest' : List α} {c c' : α} (hc : keep c = true)
    (hc' : keep c' = true) (h : start ++ c :: rest = start' ++ c' :: rest')
    (hkept : start.filter keep = start'.filter keep) : start = start' := by
  -- the longer of the two goes on with a character that is kept
  have hshorter : ∀ {start start' rest rest' : List α} {c : α}, keep c = true →
      start ++ c :: rest = start' ++ rest' → start.filter keep = start'.filter keep →
      start <+: start' → start = start' := by
    intro start start' rest rest' c hc h hkept hprefix
    obtain ⟨more, rfl⟩ := hprefix
    cases more with
    | nil => exact (List.append_nil start).symm
    | cons d more =>
      rw [List.append_assoc] at h
      obtain rfl : c = d := (List.cons.inj (List.append_cancel_left h)).1
      rw [List.filter_append, List.filter_cons_of_pos hc] at hkept
      simp at hkept
  rcases List.prefix_or_prefix_of_prefix (List.prefix_append start (c :: rest))
    (h ▸ List.prefix_append start' (c' :: rest')) with hprefix | hprefix
  · exact hshorter hc h hkept hprefix
  · exact (hshorter hc' h.symm hkept.symm hprefix).symm

end

/-! ## Several texts -/

section

variable {keep : α → Bool} {mark : List α} {secrets texts : List (List α)}

/-- Pieces that give the texts, with a secret in one of the texts in one piece and
    at the place where it stands in kept characters, have it there in kept
    characters of the pieces of that text. -/
theorem infix_of_aligned {secret start rest : List α} {earlier later before here after :
    List (Piece α)} (hne : secret ≠ []) (hhere : original here = start ++ secret ++ rest)
    (hbefore : original before = original earlier ++ start)
    (h : earlier ++ (here ++ later) = before ++ (secret.map kept ++ after)) :
    secret.map kept <:+: here := by
  obtain ⟨c, word, rfl⟩ := List.exists_cons_of_ne_nil hne
  -- `before` goes on from `earlier`
  obtain ⟨within, rfl⟩ : ∃ within, before = earlier ++ within := by
    rcases List.prefix_or_prefix_of_prefix (List.prefix_append earlier (here ++ later))
      (h ▸ List.prefix_append before _) with ⟨within, hwithin⟩ | ⟨more, rfl⟩
    · exact ⟨within, hwithin.symm⟩
    · rw [original_append, List.append_assoc] at hbefore
      have hempty : original more ++ start = [] := by
        have := congrArg List.length hbefore
        simp only [List.length_append] at this
        exact List.eq_nil_of_length_eq_zero (by rw [List.length_append]; omega)
      cases more with
      | nil => exact ⟨[], by simp⟩
      | cons piece more =>
        rw [List.append_assoc] at h
        obtain ⟨rfl, -⟩ := List.cons.inj (List.append_cancel_left h)
        cases hempty
  rw [original_append] at hbefore
  have hwithin := List.append_cancel_left hbefore
  rw [List.append_assoc] at h
  have htail := List.append_cancel_left h
  rw [← List.append_assoc] at htail
  -- and the secret does not go on beyond `here`
  rcases List.prefix_or_prefix_of_prefix (List.prefix_append here later)
    (htail ▸ List.prefix_append (within ++ (c :: word).map kept) after) with ⟨more, hmore⟩ | hfits
  · have hempty : original more = [] := by
      have hlength := congrArg (List.length ∘ original) hmore
      simp only [Function.comp, original_append, original_map_kept, hhere, hwithin,
        List.length_append] at hlength
      exact List.eq_nil_of_length_eq_zero (by omega)
    have hsame : here = within ++ (c :: word).map kept := by
      rcases List.suffix_or_suffix_of_suffix (⟨here, hmore⟩ : more <:+ _)
        (List.suffix_append within ((c :: word).map kept)) with ⟨front, hfront⟩ | ⟨front, rfl⟩
      · cases more with
        | nil => rw [← hmore, List.append_nil]
        | cons piece more =>
          have hpiece : piece ∈ (c :: word).map kept := by
            rw [← hfront]
            exact List.mem_append_right _ (.head _)
          obtain ⟨d, -, rfl⟩ := List.mem_map.1 hpiece
          cases hempty
      · rw [original_append, original_map_kept] at hempty
        simp at hempty
    rw [hsame]
    exact (List.suffix_append _ _).isInfix
  · exact (List.suffix_append _ _).isInfix.trans hfits.isInfix

variable [DecidableEq α]

/-- Where every secret is caught and none overlaps a mark, no secret is left in the
    redacted texts, one after another. -/
theorem not_infix_redacted (hmark : ∀ c ∈ mark, keep c = true)
    (hapart : ∀ secret ∈ secrets, secret ≠ [] → Apart secret mark)
    (hcaught : ∀ secret ∈ secrets, secret ≠ [] → Caught keep secret texts)
    {secret : List α} (hsecret : secret ∈ secrets) (hne : secret ≠ []) :
    ¬ secret <:+: (texts.map fun text => (redact secrets mark text).filter keep).flatten := by
  intro hinfix
  -- the pieces of all texts
  let pieces (text : List α) : List (Piece α) := mask_all secrets (text.map kept)
  have hrender : (texts.map fun text => (redact secrets mark text).filter keep).flatten =
      render mark ((texts.map pieces).flatten.filter (left keep)) := by
    rw [render_filter hmark]
    clear hcaught hinfix
    induction texts with
    | nil => rfl
    | cons text texts ih =>
      rw [List.map_cons, List.flatten_cons, ih, List.map_cons, List.flatten_cons, render_append,
        render_mask_all hapart, List.filter_append]
  have horiginal : ∀ texts : List (List α),
      original (texts.map pieces).flatten = texts.flatten := by
    intro texts
    induction texts with
    | nil => rfl
    | cons text texts ih =>
      rw [List.map_cons, List.flatten_cons, original_append, ih, original_mask_all,
        List.flatten_cons]
  rw [hrender] at hinfix
  obtain ⟨front, back, hsplit⟩ := infix_of_render (hapart secret hsecret hne) hne hinfix
  rw [List.append_assoc] at hsplit
  -- the place where it starts in the pieces
  obtain ⟨c, word, rfl⟩ := List.exists_cons_of_ne_nil hne
  obtain ⟨early, late, hpieces, hearly, hlate⟩ := List.filter_eq_append_iff.1 hsplit.symm
  obtain ⟨dropped, late, rfl, hdropped, hc, hword⟩ := List.filter_eq_cons_iff.1 hlate
  have hleft : (kept c :: late).filter (left keep) = (c :: word).map kept ++ back := by
    rw [List.filter_cons_of_pos hc, hword]
    rfl
  obtain ⟨rest, hrest⟩ := original_left hleft
  have hflat : texts.flatten = original (early ++ dropped) ++ original (kept c :: late) := by
    rw [← original_append, ← horiginal, hpieces, List.append_assoc]
  -- and in the texts
  have hkept : texts.flatten.filter keep =
      (original (early ++ dropped)).filter keep ++ (c :: word) ++ rest := by
    rw [hflat, List.filter_append, hrest, List.append_assoc]
  obtain ⟨earlier, start, after, later, rfl, hstart⟩ := hcaught _ hsecret hne _ _ hkept
  -- both places are after the same kept characters, so they are one
  have hplace : earlier.flatten ++ start = original (early ++ dropped) := by
    have hwhole : (earlier.flatten ++ start) ++ c :: (word ++ (after ++ later.flatten)) =
        original (early ++ dropped) ++ c :: original late := by
      have hfirst : original (kept c :: late) = c :: original late := rfl
      rw [List.flatten_append, List.flatten_cons, hfirst] at hflat
      simpa [List.append_assoc] using hflat
    exact start_unique hc hc hwhole hstart
  have htext : original (kept c :: late) = (c :: word) ++ (after ++ later.flatten) := by
    rw [← hplace, List.flatten_append, List.flatten_cons] at hflat
    simp only [List.append_assoc] at hflat
    exact (List.append_cancel_left (List.append_cancel_left hflat)).symm
  obtain ⟨beyond, hbeyond⟩ := prefix_of_left hleft htext
  have haligned : (earlier.map pieces).flatten ++
      (pieces (start ++ (c :: word) ++ after) ++ (later.map pieces).flatten) =
        (early ++ dropped) ++ ((c :: word).map kept ++ beyond) := by
    rw [hbeyond, List.append_assoc early, ← hpieces, List.map_append, List.map_cons,
      List.flatten_append, List.flatten_cons]
  refine not_infix_mask_all hsecret hne _ (infix_of_aligned hne
    (original_mask_all secrets (start ++ (c :: word) ++ after)) ?_ haligned)
  rw [← hplace, horiginal]

/-- A text without the secrets is left as it is. -/
theorem redact_of_absent {text : List α}
    (h : ∀ secret ∈ secrets, secret ≠ [] → ¬ secret <:+: text) :
    redact secrets mark text = text := by
  have hreplace : ∀ (secret text : List α), ¬ secret <:+: text →
      replace secret mark text = text := by
    intro secret text
    induction text with
    | nil => exact fun _ => rfl
    | cons c text ih =>
      intro h
      rw [replace_cons fun hstart => h hstart.isInfix,
        ih fun hlater => h (hlater.trans (List.suffix_cons c text).isInfix)]
  have hfold : ∀ patterns : List (List α), (∀ pattern ∈ patterns, ¬ pattern <:+: text) →
      patterns.foldl (fun text secret => replace secret mark text) text = text := by
    intro patterns
    induction patterns with
    | nil => exact fun _ => rfl
    | cons pattern patterns ih =>
      intro hpatterns
      obtain ⟨hpattern, hrest⟩ := List.forall_mem_cons.1 hpatterns
      rw [List.foldl_cons, hreplace pattern text hpattern, ih hrest]
  refine hfold _ fun pattern hpattern => ?_
  obtain ⟨hmem, hne⟩ := mem_secrets.1 hpattern
  exact h pattern hmem hne

/-- Texts without the secrets show none, if none of them is put together. -/
theorem not_infix_absent
    (habsent : ∀ text ∈ texts, ∀ secret ∈ secrets, secret ≠ [] → ¬ secret <:+: text)
    (hcaught : ∀ secret ∈ secrets, secret ≠ [] → Caught keep secret texts)
    {secret : List α} (hsecret : secret ∈ secrets) (hne : secret ≠ []) :
    ¬ secret <:+: (texts.map fun text => (redact secrets mark text).filter keep).flatten := by
  have hsame : (texts.map fun text => (redact secrets mark text).filter keep).flatten =
      texts.flatten.filter keep := by
    rw [List.filter_flatten]
    refine congrArg List.flatten (List.map_congr_left fun text htext => ?_)
    rw [redact_of_absent (habsent text htext)]
  rw [hsame]
  rintro ⟨before, after, hinfix⟩
  obtain ⟨earlier, start, rest, later, rfl, -⟩ := hcaught _ hsecret hne _ _ hinfix.symm
  exact habsent _ (List.mem_append_right _ (.head _)) secret hsecret hne
    ⟨start, rest, rfl⟩

end

end Inferences.Redaction
