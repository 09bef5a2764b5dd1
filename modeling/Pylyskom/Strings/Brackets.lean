import Mathlib.Data.List.Forall2
import Mathlib.Data.List.Infix
import Mathlib.Data.Set.Basic
import Mathlib.Order.Cover
import Mathlib.Order.UpperLower.Basic

/-!
# Regular expressions of literals and bracket expressions

A regular expression is a list of atoms, each of which matches one character: a literal, or a
bracket expression, which a leading negation character complements. In brackets a leading
closing character is literal, and a dash between two characters makes a range. This file reads
texts as such expressions, and says for which increasing lists of characters the list between
brackets matches the characters of the list.
-/

namespace Pylyskom

/-- The characters with a meaning in or around brackets, in the order that they have in ASCII. -/
structure BracketSyntax (α : Type) [LinearOrder α] where
  dash : α
  opening : α
  closing : α
  negation : α
  dash_lt : dash < opening
  opening_lt : opening < closing
  closing_lt : closing < negation

/-- What a bracket expression lists. -/
inductive BracketItem (α : Type)
  | char (c : α)
  | range (first last : α)
  deriving DecidableEq, Repr

/-- A regular expression that matches one character. -/
inductive Atom (α : Type)
  | literal (c : α)
  | bracket (negated : Bool) (items : List (BracketItem α))
  deriving DecidableEq, Repr

/-- What has been read when a text is read as a regular expression. -/
inductive BracketState (α : Type)
  | outside
  /-- An opening character. -/
  | opened
  /-- All that comes before the first character of a bracket expression. -/
  | first (negated : Bool)
  | inside (negated : Bool) (content : List α)

variable {α : Type} [LinearOrder α]

def BracketItem.Matches : BracketItem α → α → Prop
  | char c, x => x = c
  | range first last, x => first ≤ x ∧ x ≤ last

instance (item : BracketItem α) (x : α) : Decidable (item.Matches x) :=
  match item with
  | .char c => inferInstanceAs (Decidable (x = c))
  | .range first last => inferInstanceAs (Decidable (first ≤ x ∧ x ≤ last))

def Atom.Matches : Atom α → α → Prop
  | literal c, x => x = c
  | bracket false items, x => ∃ item ∈ items, item.Matches x
  | bracket true items, x => ¬ ∃ item ∈ items, item.Matches x

instance (atom : Atom α) (x : α) : Decidable (atom.Matches x) :=
  match atom with
  | .literal c => inferInstanceAs (Decidable (x = c))
  | .bracket false items => inferInstanceAs (Decidable (∃ item ∈ items, item.Matches x))
  | .bracket true items => inferInstanceAs (Decidable (¬ ∃ item ∈ items, item.Matches x))

/-- The characters of `V` that an atom matches. -/
def Atom.within (V : Set α) (atom : Atom α) : Set α := {x | x ∈ V ∧ atom.Matches x}

namespace BracketSyntax

variable (s : BracketSyntax α)

/-- The items between brackets. -/
def items : List α → List (BracketItem α)
  | a :: d :: b :: rest =>
    if d = s.dash then .range a b :: items rest else .char a :: items (d :: b :: rest)
  | a :: rest => .char a :: items rest
  | [] => []

def parseFrom : BracketState α → List α → Option (List (Atom α))
  | .outside, [] => some []
  | _, [] => none
  | .outside, c :: rest =>
    if c = s.opening then parseFrom .opened rest
    else (parseFrom .outside rest).map (.literal c :: ·)
  | .opened, c :: rest =>
    if c = s.negation then parseFrom (.first true) rest else parseFrom (.inside false [c]) rest
  | .first negated, c :: rest => parseFrom (.inside negated [c]) rest
  | .inside negated content, c :: rest =>
    if c = s.closing then (parseFrom .outside rest).map (.bracket negated (s.items content) :: ·)
    else parseFrom (.inside negated (content ++ [c])) rest

/-- Read a text as a regular expression; `none` if a bracket stays open. -/
def parse (text : List α) : Option (List (Atom α)) := s.parseFrom .outside text

/-- A text is read as these atoms, whatever follows. -/
def ReadsAs (text : List α) (atoms : List (Atom α)) : Prop :=
  ∀ rest, s.parse (text ++ rest) = (s.parse rest).map (atoms ++ ·)

/-- Some characters as one regular expression: in brackets, unless there is only one. -/
def paste (chars : List α) : List α :=
  if chars.length > 1 then s.opening :: chars ++ [s.closing] else chars

variable {s}

/-! ## Reading -/

namespace ReadsAs

theorem parse_eq {text : List α} {atoms : List (Atom α)} (h : s.ReadsAs text atoms) :
    s.parse text = some atoms := by
  have hend : s.parse [] = some [] := rfl
  have hnil := h []
  rwa [hend, List.append_nil, Option.map_some, List.append_nil] at hnil

theorem nil : s.ReadsAs [] [] := fun rest => by simp

theorem append {text text' : List α} {atoms atoms' : List (Atom α)} (h : s.ReadsAs text atoms)
    (h' : s.ReadsAs text' atoms') : s.ReadsAs (text ++ text') (atoms ++ atoms') := by
  intro rest
  rw [List.append_assoc, h, h', Option.map_map]
  refine congrArg (fun f => Option.map f (s.parse rest)) (funext fun more => ?_)
  rw [Function.comp_apply, List.append_assoc]

theorem flatMap {β : Type} {text : β → List α} {atoms : β → List (Atom α)} {l : List β}
    (h : ∀ b ∈ l, s.ReadsAs (text b) (atoms b)) :
    s.ReadsAs (l.flatMap text) (l.flatMap atoms) := by
  induction l with
  | nil => exact nil
  | cons b l ih =>
    rw [List.flatMap_cons, List.flatMap_cons]
    exact (h b List.mem_cons_self).append (ih fun b hb => h b (List.mem_cons_of_mem _ hb))

theorem literal {c : α} (h : c ≠ s.opening) : s.ReadsAs [c] [.literal c] := by
  intro rest
  rw [List.singleton_append, parse, parseFrom, if_neg h]
  rfl

theorem literals {l : List α} (h : s.opening ∉ l) : s.ReadsAs l (l.map .literal) := by
  induction l with
  | nil => exact nil
  | cons c l ih =>
    have hc : c ≠ s.opening := fun heq => h (heq ▸ List.mem_cons_self)
    exact (literal hc).append (ih fun hmem => h (List.mem_cons_of_mem c hmem))

/-- A bracket expression ends at the next closing character. -/
private theorem parseFrom_inside (negated : Bool) (content : List α) {l : List α}
    (h : s.closing ∉ l) (rest : List α) :
    s.parseFrom (.inside negated content) (l ++ s.closing :: rest) =
      (s.parse rest).map (.bracket negated (s.items (content ++ l)) :: ·) := by
  induction l generalizing content with
  | nil => rw [List.nil_append, parseFrom, if_pos rfl, List.append_nil]; rfl
  | cons c l ih =>
    obtain ⟨hc, hl⟩ := not_or.mp (mt List.mem_cons.mpr h)
    rw [List.cons_append, parseFrom, if_neg (fun heq => hc heq.symm), ih (content ++ [c]) hl,
      List.append_assoc, List.singleton_append]

theorem bracket {a : α} {l : List α} (ha : a ≠ s.negation) (hl : s.closing ∉ l) :
    s.ReadsAs (s.opening :: a :: (l ++ [s.closing])) [.bracket false (s.items (a :: l))] := by
  intro rest
  have hinside := parseFrom_inside false [a] hl rest
  simp only [List.cons_append, List.append_assoc, List.nil_append, parse, parseFrom, if_true,
    if_neg ha]
  exact hinside

theorem negatedBracket {a : α} {l : List α} (hl : s.closing ∉ l) :
    s.ReadsAs (s.opening :: s.negation :: a :: (l ++ [s.closing]))
      [.bracket true (s.items (a :: l))] := by
  intro rest
  have hinside := parseFrom_inside true [a] hl rest
  simp only [List.cons_append, List.append_assoc, List.nil_append, parse, parseFrom, if_true]
  exact hinside

end ReadsAs

/-! ## What a list between brackets matches -/

theorem items_of_not_mem {l : List α} (h : s.dash ∉ l) : s.items l = l.map .char := by
  fun_induction items s l with
  | case1 a b rest ih => exact absurd (List.mem_cons_of_mem a List.mem_cons_self) h
  | case2 a d b rest hd ih =>
    rw [ih fun hmem => h (List.mem_cons_of_mem a hmem)]
    rfl
  | case3 a rest hrest ih =>
    rw [ih fun hmem => h (List.mem_cons_of_mem a hmem), List.map_cons]
  | case4 => rfl

/-- The characters listed by themselves, and those between the neighbours of a dash. -/
def Listed (s : BracketSyntax α) (l : List α) (x : α) : Prop :=
  x ∈ l ∨ ∃ a b, [a, s.dash, b] <:+: l ∧ a ≤ x ∧ x ≤ b

/-- A character in front of something other than a dash and a last character. -/
private theorem listed_cons_iff {a x : α} {l : List α} (h : ∀ b, ¬ [s.dash, b] <+: l) :
    s.Listed (a :: l) x ↔ x = a ∨ s.Listed l x := by
  have hpiece : ∀ a' b', [a', s.dash, b'] <:+: a :: l ↔ [a', s.dash, b'] <:+: l := by
    intro a' b'
    rw [List.infix_cons_iff, List.cons_prefix_cons]
    exact or_iff_right fun hpre => h b' hpre.2
  simp only [Listed, hpiece, List.mem_cons, or_assoc]

/-- A dash behind the first character of an increasing list is the only dash. -/
private theorem listed_range_iff {a b x : α} {l : List α}
    (hsorted : (a :: s.dash :: b :: l).Pairwise (· < ·)) :
    s.Listed (a :: s.dash :: b :: l) x ↔ (a ≤ x ∧ x ≤ b) ∨ x ∈ l := by
  obtain ⟨ha, hrest⟩ := List.pairwise_cons.mp hsorted
  obtain ⟨hdash, -⟩ := List.pairwise_cons.mp hrest
  have ha_dash : a < s.dash := ha _ List.mem_cons_self
  have hdash_b : s.dash < b := hdash _ List.mem_cons_self
  constructor
  · rintro (hx | ⟨a', b', hpiece, hx⟩)
    · rcases List.mem_cons.mp hx with rfl | hx
      · exact Or.inl ⟨le_refl x, (ha_dash.trans hdash_b).le⟩
      rcases List.mem_cons.mp hx with rfl | hx
      · exact Or.inl ⟨ha_dash.le, hdash_b.le⟩
      rcases List.mem_cons.mp hx with rfl | hx
      · exact Or.inl ⟨(ha_dash.trans hdash_b).le, le_refl x⟩
      · exact Or.inr hx
    · rw [List.infix_cons_iff, List.infix_cons_iff] at hpiece
      simp only [List.cons_prefix_cons] at hpiece
      rcases hpiece with ⟨rfl, -, rfl, -⟩ | ⟨-, rfl, -⟩ | hpiece
      · exact Or.inl hx
      · exact absurd hdash_b (lt_irrefl _)
      · have hmem : s.dash ∈ b :: l := hpiece.subset (by simp)
        exact absurd (hdash _ hmem) (lt_irrefl _)
  · rintro (hx | hx)
    · exact Or.inr ⟨a, b, ⟨[], l, rfl⟩, hx⟩
    · exact Or.inl (by simp [hx])

/-- An increasing list between brackets matches what it lists. -/
theorem exists_mem_items_iff {l : List α} (hsorted : l.Pairwise (· < ·)) {x : α} :
    (∃ item ∈ s.items l, item.Matches x) ↔ s.Listed l x := by
  fun_induction items s l with
  | case1 a b rest ih =>
    have hdash : s.dash ∉ rest := by
      intro hmem
      have hrest := List.pairwise_cons.mp (List.pairwise_cons.mp hsorted).2
      exact absurd (hrest.1 _ (List.mem_cons_of_mem b hmem)) (lt_irrefl _)
    rw [listed_range_iff hsorted, items_of_not_mem hdash]
    simp [BracketItem.Matches]
  | case2 a d b rest hd ih =>
    have hnot : ∀ b', ¬ [s.dash, b'] <+: d :: b :: rest := by
      intro b' hpre
      exact hd (List.cons_prefix_cons.mp hpre).1.symm
    rw [listed_cons_iff hnot, ← ih (List.pairwise_cons.mp hsorted).2]
    simp [BracketItem.Matches]
  | case3 a rest hrest ih =>
    have hnot : ∀ b', ¬ [s.dash, b'] <+: rest := by
      rintro b' ⟨more, hmore⟩
      exact hrest s.dash b' more hmore.symm
    rw [listed_cons_iff hnot, ← ih (List.pairwise_cons.mp hsorted).2]
    simp [BracketItem.Matches]
  | case4 => simp [Listed]

/-! ## Pasting -/

/-- An increasing list may be pasted: it needs no brackets, or its first character does not
negate, no later one ends the expression, and no dash adds to it. -/
def Faithful (s : BracketSyntax α) (l : List α) : Prop :=
  l.length ≤ 1 ∨ l.head? ≠ some s.negation ∧ (s.closing ∈ l → l.head? = some s.closing) ∧
    ∀ x, s.Listed l x → x ∈ l

/-- What is known of the atoms that a pasted list is read as: each of them matches something,
and they are one atom for the list exactly if it may be pasted. -/
structure Pasted (s : BracketSyntax α) (V : Set α) (l : List α) (atoms : List (Atom α)) :
    Prop where
  readsAs : s.ReadsAs (s.paste l) atoms
  ne_nil : atoms ≠ []
  nonempty : ∀ atom ∈ atoms, (atom.within V).Nonempty
  map_within_iff : atoms.map (Atom.within V) = [{x | x ∈ l}] ↔ s.Faithful l

variable {V : Set α} {a b : α} {l : List α}

/-- A list between brackets matches its own characters. -/
theorem bracket_matches_of_mem (hsorted : l.Pairwise (· < ·)) (ha : a ∈ l) :
    (Atom.bracket false (s.items l)).Matches a :=
  (exists_mem_items_iff hsorted).mpr (Or.inl ha)

theorem pasted_singleton (ha : a ≠ s.opening) (haV : a ∈ V) :
    s.Pasted V [a] [.literal a] where
  readsAs := ReadsAs.literal ha
  ne_nil := List.cons_ne_nil _ _
  nonempty := by
    rintro atom hatom
    obtain rfl := List.mem_singleton.mp hatom
    exact ⟨a, haV, rfl⟩
  map_within_iff := by
    refine iff_of_true ?_ (Or.inl (le_refl 1))
    rw [List.map_singleton, List.singleton_inj]
    ext x
    rw [Set.mem_ofPred_eq, List.mem_singleton]
    exact ⟨fun hx => hx.2, fun hx => ⟨hx ▸ haV, hx⟩⟩

/-- A negation character in front: the other characters are what is not matched. -/
theorem pasted_negation (hsorted : (s.negation :: b :: l).Pairwise (· < ·))
    (hlV : ∀ x ∈ s.negation :: b :: l, x ∈ V) :
    s.Pasted V (s.negation :: b :: l) [.bracket true (s.items (b :: l))] := by
  obtain ⟨hlt, hrest⟩ := List.pairwise_cons.mp hsorted
  have hclosing : s.closing ∉ l := fun hmem =>
    absurd (hlt _ (List.mem_cons_of_mem b hmem)) s.closing_lt.not_gt
  have hdash : s.dash ∉ b :: l := fun hmem =>
    absurd (hlt _ hmem) (s.dash_lt.trans (s.opening_lt.trans s.closing_lt)).not_gt
  have hmatches (x : α) : (Atom.bracket true (s.items (b :: l))).Matches x ↔ x ∉ b :: l := by
    change (¬ ∃ item ∈ s.items (b :: l), item.Matches x) ↔ x ∉ b :: l
    rw [items_of_not_mem hdash]
    simp [BracketItem.Matches]
  refine ⟨ReadsAs.negatedBracket hclosing, List.cons_ne_nil _ _, ?_, ?_⟩
  · intro atom hatom
    obtain rfl := List.mem_singleton.mp hatom
    refine ⟨s.negation, hlV _ List.mem_cons_self, (hmatches _).mpr fun hmem => ?_⟩
    exact absurd (hlt _ hmem) (lt_irrefl _)
  · refine iff_of_false (fun heq => ?_) ?_
    · have hb : b ∈ (Atom.bracket true (s.items (b :: l))).within V := by
        rw [List.map_singleton, List.singleton_inj] at heq
        rw [heq]
        exact List.mem_cons_of_mem _ List.mem_cons_self
      exact (hmatches b).mp hb.2 List.mem_cons_self
    · rintro (hlength | ⟨hhead, -⟩)
      · simp at hlength
      · exact hhead rfl

/-- A closing character behind the first one: the brackets end there, and what follows has to
be matched too. -/
theorem pasted_cut {before after : List α} (ha : a ≠ s.negation)
    (hsorted : (a :: (before ++ s.closing :: after)).Pairwise (· < ·))
    (hbefore : s.closing ∉ before)
    (hlV : ∀ x ∈ a :: (before ++ s.closing :: after), x ∈ V) :
    s.Pasted V (a :: (before ++ s.closing :: after))
      (.bracket false (s.items (a :: before)) ::
        (after.map .literal ++ [.literal s.closing])) := by
  obtain ⟨hlt, hrest⟩ := List.pairwise_cons.mp hsorted
  obtain ⟨hbefore_sorted, hafter_sorted, -⟩ := List.pairwise_append.mp hrest
  have hafter : ∀ c ∈ after, s.closing < c := (List.pairwise_cons.mp hafter_sorted).1
  have hopening : s.opening ∉ after := fun hmem =>
    absurd (hafter _ hmem) s.opening_lt.not_gt
  have hlength : (a :: (before ++ s.closing :: after)).length > 1 := by
    simp only [List.length_cons, List.length_append]
    omega
  have hhead : (a :: before).Pairwise (· < ·) :=
    List.pairwise_cons.mpr ⟨fun c hc => hlt c (List.mem_append_left _ hc), hbefore_sorted⟩
  refine ⟨?_, List.cons_ne_nil _ _, ?_, ?_⟩
  · have hbracket := ReadsAs.bracket ha hbefore
    have hliteral := ReadsAs.literal s.opening_lt.ne'
    have hreads := hbracket.append ((ReadsAs.literals hopening).append hliteral)
    rw [paste, if_pos hlength]
    simpa using hreads
  · intro atom hatom
    rcases List.mem_cons.mp hatom with rfl | hatom
    · exact ⟨a, hlV a List.mem_cons_self, bracket_matches_of_mem hhead List.mem_cons_self⟩
    rcases List.mem_append.mp hatom with hatom | hatom
    · obtain ⟨c, hc, rfl⟩ := List.mem_map.mp hatom
      exact ⟨c, hlV c (by simp [hc]), rfl⟩
    · obtain rfl := List.mem_singleton.mp hatom
      exact ⟨s.closing, hlV _ (by simp), rfl⟩
  · refine iff_of_false (fun heq => ?_) ?_
    · have hlen := congrArg List.length heq
      simp at hlen
    · rintro (hle | ⟨-, hclosing, -⟩)
      · exact absurd hle (Nat.not_le.mpr hlength)
      · have hlt_closing : a < s.closing := hlt _ (by simp)
        exact hlt_closing.ne (Option.some.inj (hclosing (by simp)))

/-- Otherwise the brackets enclose the list. -/
theorem pasted_bracket (ha : a ≠ s.negation) (hsorted : (a :: b :: l).Pairwise (· < ·))
    (hclosing : s.closing ∉ b :: l) (hV : IsLowerSet V) (hlV : ∀ x ∈ a :: b :: l, x ∈ V) :
    s.Pasted V (a :: b :: l) [.bracket false (s.items (a :: b :: l))] := by
  have hmatches {x : α} : (Atom.bracket false (s.items (a :: b :: l))).Matches x ↔
      s.Listed (a :: b :: l) x := exists_mem_items_iff hsorted
  have hlisted : ∀ x, s.Listed (a :: b :: l) x → x ∈ V := by
    rintro x (hx | ⟨a', b', hpiece, -, hx⟩)
    · exact hlV x hx
    · exact hV hx (hlV b' (hpiece.subset (by simp)))
  refine ⟨ReadsAs.bracket ha hclosing, List.cons_ne_nil _ _, ?_, ?_⟩
  · intro atom hatom
    obtain rfl := List.mem_singleton.mp hatom
    exact ⟨a, hlV a List.mem_cons_self, bracket_matches_of_mem hsorted List.mem_cons_self⟩
  · rw [List.map_singleton, List.singleton_inj, Set.ext_iff]
    constructor
    · intro heq
      refine Or.inr ⟨fun hhead => ha (Option.some.inj hhead), fun hmem => ?_, fun x hx => ?_⟩
      · rw [(List.mem_cons.mp hmem).resolve_right hclosing]
        rfl
      · exact (heq x).mp ⟨hlisted x hx, hmatches.mpr hx⟩
    · rintro (hlength | ⟨-, -, hfaithful⟩) x
      · simp at hlength
      · exact ⟨fun hx => hfaithful x (hmatches.mp hx.2),
          fun hx => ⟨hlV x hx, hmatches.mpr (Or.inl hx)⟩⟩

/-- Every increasing list other than a lone opening character is read as some atoms. -/
theorem exists_pasted (hsorted : l.Pairwise (· < ·)) (hne : l ≠ []) (hopening : l ≠ [s.opening])
    (hV : IsLowerSet V) (hlV : ∀ x ∈ l, x ∈ V) : ∃ atoms, s.Pasted V l atoms := by
  match l with
  | [] => exact absurd rfl hne
  | [a] =>
    exact ⟨_, pasted_singleton (fun heq => hopening (by rw [heq])) (hlV a List.mem_cons_self)⟩
  | a :: b :: l =>
    by_cases ha : a = s.negation
    · subst ha
      exact ⟨_, pasted_negation hsorted hlV⟩
    · by_cases hclosing : s.closing ∈ b :: l
      · obtain ⟨before, after, heq, hbefore⟩ := List.eq_append_cons_of_mem hclosing
        rw [heq] at hsorted hlV ⊢
        exact ⟨_, pasted_cut ha hsorted hbefore hlV⟩
      · exact ⟨_, pasted_bracket ha hsorted hclosing hV hlV⟩

/-! ## Which lists may be pasted -/

/-- The first element of an increasing list is its least one. -/
theorem head?_eq_some_iff_le (hsorted : l.Pairwise (· < ·)) (ha : a ∈ l) :
    l.head? = some a ↔ ∀ x ∈ l, a ≤ x := by
  cases l with
  | nil => cases ha
  | cons b l =>
    have hb := (List.pairwise_cons.mp hsorted).1
    rw [List.head?_cons, Option.some.injEq]
    constructor
    · rintro rfl x hx
      rcases List.mem_cons.mp hx with rfl | hx
      · exact le_refl x
      · exact (hb x hx).le
    · intro hle
      rcases List.mem_cons.mp ha with rfl | ha
      · rfl
      · exact absurd (hle b List.mem_cons_self) (hb a ha).not_ge

/-- The neighbours of a dash in an increasing list are the next characters on its two sides. -/
theorem le_and_ge_of_dash {before after : List α}
    (hsorted : (before ++ [a, s.dash, b] ++ after).Pairwise (· < ·)) {x : α}
    (hx : x ∈ before ++ [a, s.dash, b] ++ after) :
    (x < s.dash → x ≤ a) ∧ (s.dash < x → b ≤ x) := by
  simp only [List.append_assoc, List.cons_append, List.nil_append, List.pairwise_append,
    List.pairwise_cons, List.mem_append, List.mem_cons] at hsorted hx
  obtain ⟨-, ⟨ha, hdash, hb, -⟩, hbefore⟩ := hsorted
  rcases hx with hx | rfl | rfl | rfl | hx
  · have hxa : x < a := hbefore x hx a (Or.inl rfl)
    have hxd : x < s.dash := hbefore x hx s.dash (Or.inr (Or.inl rfl))
    exact ⟨fun _ => hxa.le, fun h => absurd h hxd.not_gt⟩
  · exact ⟨fun _ => le_refl x, fun h => absurd h (ha s.dash (Or.inl rfl)).not_gt⟩
  · exact ⟨fun h => absurd h (lt_irrefl _), fun h => absurd h (lt_irrefl _)⟩
  · exact ⟨fun h => absurd h (hdash x (Or.inl rfl)).not_gt, fun _ => le_refl x⟩
  · exact ⟨fun h => absurd h (hdash x (Or.inr hx)).not_gt, fun _ => (hb x hx).le⟩

/-- A dash adds nothing if it is the first or the last character, or the range around it
consists of it and the characters next to it. -/
theorem forall_listed_mem_iff (hsorted : l.Pairwise (· < ·)) {p q : α} (hp : p ⋖ s.dash)
    (hq : s.dash ⋖ q) :
    (∀ x, s.Listed l x → x ∈ l) ↔
      (s.dash ∈ l → (∀ x ∈ l, s.dash ≤ x) ∨ (∀ x ∈ l, x ≤ s.dash) ∨ p ∈ l ∧ q ∈ l) := by
  constructor
  · intro h hdash
    obtain ⟨before, after, rfl⟩ := List.append_of_mem hdash
    obtain ⟨-, hafter, hbefore⟩ := List.pairwise_append.mp hsorted
    rcases List.eq_nil_or_concat before with rfl | ⟨before, a, rfl⟩
    · exact Or.inl ((head?_eq_some_iff_le hsorted hdash).mp rfl)
    cases after with
    | nil =>
      refine Or.inr (Or.inl fun x hx => ?_)
      rcases List.mem_append.mp hx with hx | hx
      · exact (hbefore x hx _ List.mem_cons_self).le
      · exact (List.mem_singleton.mp hx).le
    | cons b after =>
      have ha : a < s.dash := hbefore a (by simp) _ List.mem_cons_self
      have hb : s.dash < b := (List.pairwise_cons.mp hafter).1 b List.mem_cons_self
      have hrange (x : α) (hax : a ≤ x) (hxb : x ≤ b) : x ∈ _ :=
        h x (Or.inr ⟨a, b, ⟨before, after, by simp⟩, hax, hxb⟩)
      exact Or.inr (Or.inr ⟨hrange p (hp.le_of_lt ha) (hp.lt.trans hb).le,
        hrange q (ha.trans hq.lt).le (hq.ge_of_gt hb)⟩)
  · rintro h x (hx | ⟨a, b, ⟨before, after, rfl⟩, hax, hxb⟩)
    · exact hx
    have hab : a < s.dash ∧ s.dash < b := by
      simp only [List.append_assoc, List.cons_append, List.nil_append, List.pairwise_append,
        List.pairwise_cons] at hsorted
      obtain ⟨-, ⟨ha, hdash, -⟩, -⟩ := hsorted
      exact ⟨ha _ List.mem_cons_self, hdash _ List.mem_cons_self⟩
    rcases h (by simp) with hmin | hmax | ⟨hmem_p, hmem_q⟩
    · exact absurd (hmin a (by simp)) hab.1.not_ge
    · exact absurd (hmax b (by simp)) hab.2.not_ge
    · have hpa : p ≤ a := (le_and_ge_of_dash hsorted hmem_p).1 hp.lt
      have hbq : b ≤ q := (le_and_ge_of_dash hsorted hmem_q).2 hq.lt
      rcases lt_trichotomy x s.dash with hx | rfl | hx
      · rwa [le_antisymm (hp.le_of_lt hx) (hpa.trans hax)]
      · simp
      · rwa [le_antisymm (hxb.trans hbq) (hq.ge_of_gt hx)]

/-- When an increasing list may be pasted, as a condition on the set of its characters. -/
theorem faithful_iff (hsorted : l.Pairwise (· < ·)) {p q : α} (hp : p ⋖ s.dash)
    (hq : s.dash ⋖ q) :
    s.Faithful l ↔ l.length ≤ 1 ∨ (s.negation ∈ l → ∃ x ∈ l, x < s.negation) ∧
      (s.closing ∈ l → ∀ x ∈ l, s.closing ≤ x) ∧
      (s.dash ∈ l → (∀ x ∈ l, s.dash ≤ x) ∨ (∀ x ∈ l, x ≤ s.dash) ∨ p ∈ l ∧ q ∈ l) := by
  have hnegation : l.head? ≠ some s.negation ↔ (s.negation ∈ l → ∃ x ∈ l, x < s.negation) := by
    by_cases hmem : s.negation ∈ l
    · rw [ne_eq, head?_eq_some_iff_le hsorted hmem]
      simp [hmem]
    · exact iff_of_true (fun hhead => hmem (List.mem_of_head? hhead)) fun h => absurd h hmem
  have hclosing : (s.closing ∈ l → l.head? = some s.closing) ↔
      (s.closing ∈ l → ∀ x ∈ l, s.closing ≤ x) :=
    forall_congr' fun hmem => head?_eq_some_iff_le hsorted hmem
  rw [Faithful, hnegation, hclosing, forall_listed_mem_iff hsorted hp hq]

/-- The words of characters in `V` that atoms match. -/
theorem forall₂_within_iff {atoms : List (Atom α)} {w : List α} :
    List.Forall₂ (fun S x => x ∈ S) (atoms.map (Atom.within V)) w ↔
      (∀ x ∈ w, x ∈ V) ∧ List.Forall₂ Atom.Matches atoms w := by
  rw [List.forall₂_map_left_iff]
  induction w generalizing atoms with
  | nil => cases atoms <;> simp
  | cons x w ih =>
    cases atoms with
    | nil => simp
    | cons atom atoms =>
      rw [List.forall₂_cons, List.forall₂_cons, List.forall_mem_cons, ih, Atom.within,
        Set.mem_ofPred_eq, and_and_and_comm]

/-- Atoms against a relation that keeps to `V`: to match the same words of characters in `V` is
to match the same words. -/
theorem forall_forall₂_iff {β : Type} {R : β → α → Prop} {atoms : List (Atom α)} {bs : List β}
    (hR : ∀ w, List.Forall₂ R bs w → ∀ x ∈ w, x ∈ V) :
    (∀ w : List α, (∀ x ∈ w, x ∈ V) → (List.Forall₂ Atom.Matches atoms w ↔ List.Forall₂ R bs w)) ↔
      ∀ w, List.Forall₂ (fun S x => x ∈ S) (atoms.map (Atom.within V)) w ↔
        List.Forall₂ (fun S x => x ∈ S) (bs.map fun b => {x | R b x}) w := by
  refine forall_congr' fun w => ?_
  rw [forall₂_within_iff, List.forall₂_map_left_iff]
  constructor
  · intro hiff
    exact ⟨fun hw => (hiff hw.1).mp hw.2, fun hr => ⟨hR w hr, (hiff (hR w hr)).mpr hr⟩⟩
  · intro hiff hw
    exact ⟨fun hmatches => hiff.mp ⟨hw, hmatches⟩, fun hr => (hiff.mpr hr).2⟩

end BracketSyntax

end Pylyskom
