import TapeMips.Http.Accept
import TapeMips.Proofs.Pieces
import Mathlib

/-!
# What an Accept header decides

Of a header only four ranges matter, and of each range only the last entry that
names it. An entry is heard for its range, or not at all; so what a range is worth
is what the last entry says that says anything about it (`LastSays`), just as an
entry is worth what its last parameter `q` says.

Two headers with the same deciding entries are answered alike, in whatever order
these stand: of the deciding entries one at most says anything about a range
(`filterMap_deciding`), so there is nothing that their order could change.

Qualities are compared as the numbers they are, with an infinity at each end, and
what is not a number compares as false. Keeping the larger of two has then one
property (`le_better_iff`): the result is no larger than a third quality if the
first is not, and the second is not greater. For numbers this says that both are
bounded. A second quality that is no number is not greater than anything and is
passed over, while as the first it stays and bounds nothing. This is why HTML is
sent to a client that gives `text/*` no number for a quality, but not to one that
does the same with `text/plain`.
-/

namespace TapeMips.Numeral.Binary64

/-- The number that a value stands for, in units of the smallest step. -/
def value? : Binary64 → Option (WithBot (WithTop ℤ))
  | .nan => none
  | .infinite negative => some (if negative then ⊥ else (⊤ : WithTop ℤ))
  | .finite negative mantissa exponent =>
    some (scaled negative mantissa exponent : WithTop ℤ)

theorem lt_iff {a b : Binary64} :
    lt a b = true ↔ ∃ x ∈ value? a, ∃ y ∈ value? b, x < y := by
  cases a with
  | nan => simp [lt, value?]
  | infinite s =>
      cases b with
      | nan => simp [lt, value?]
      | infinite t => cases s <;> cases t <;> simp [lt, value?]
      | finite t n f => cases s <;> simp [lt, value?, WithBot.bot_lt_coe]
  | finite s m e =>
      cases b with
      | nan => simp [lt, value?]
      | infinite t =>
          have hbelow : ((scaled s m e : WithTop ℤ) : WithBot (WithTop ℤ)) < ⊤ :=
            WithBot.coe_lt_coe.mpr (WithTop.coe_lt_top _)
          cases t <;> simp [lt, value?, hbelow]
      | finite t n f => simp [lt, value?]

theorem le_iff {a b : Binary64} :
    le a b = true ↔ ∃ x ∈ value? a, ∃ y ∈ value? b, x ≤ y := by
  cases a with
  | nan => simp [le, value?]
  | infinite s =>
      cases b with
      | nan => simp [le, value?]
      | infinite t => cases s <;> cases t <;> simp [le, value?]
      | finite t n f => cases s <;> simp [le, value?]
  | finite s m e =>
      cases b with
      | nan => simp [le, value?]
      | infinite t => cases t <;> simp [le, value?]
      | finite t n f => simp [le, value?]

theorem lt_of_values {a b : Binary64} {x y : WithBot (WithTop ℤ)}
    (hx : value? a = some x) (hy : value? b = some y) : lt a b = true ↔ x < y := by
  simp [lt_iff, hx, hy]

theorem le_of_values {a b : Binary64} {x y : WithBot (WithTop ℤ)}
    (hx : value? a = some x) (hy : value? b = some y) : le a b = true ↔ x ≤ y := by
  simp [le_iff, hx, hy]

theorem value?_eq_none {a : Binary64} : value? a = none ↔ a = .nan := by
  cases a <;> simp [value?]

/-- Of a number, any value is no greater, greater, or no number itself. -/
theorem le_iff_not_lt {a b : Binary64} {y : WithBot (WithTop ℤ)}
    (hy : value? b = some y) : le a b = true ↔ ¬ lt b a = true ∧ a ≠ .nan := by
  cases hx : value? a with
  | none =>
      have hnan := value?_eq_none.mp hx
      subst hnan
      simp [le]
  | some x =>
      have hne : a ≠ .nan := fun hnan => by
        rw [value?_eq_none.mpr hnan] at hx
        cases hx
      rw [le_of_values hx hy, lt_of_values hy hx, not_lt]
      exact (and_iff_left hne).symm

/-- A value that another is below is a number, so it is above zero or not. -/
theorem zero_lt_iff {a b : Binary64} (h : le a b = true) :
    lt .zero b = true ↔ ¬ le b .zero = true := by
  obtain ⟨_, _, y, hy, -⟩ := le_iff.mp h
  have hzero : value? .zero = some ((0 : ℤ) : WithTop ℤ) := rfl
  rw [lt_of_values hzero hy, le_of_values hy hzero, not_le]

end TapeMips.Numeral.Binary64

namespace TapeMips.Http

open Text Numeral Binary64

theorem le_better_iff {a b c : Binary64} :
    le (better a b) c = true ↔ le a c = true ∧ ¬ lt c b = true := by
  rw [better]
  split
  · next hlt =>
      obtain ⟨x, hx, y, hy, hxy⟩ := lt_iff.mp hlt
      cases hz : value? c with
      | none => simp [le_iff, hz]
      | some z =>
          rw [le_of_values hy hz, le_of_values hx hz, lt_of_values hz hy, not_lt]
          exact (and_iff_right_of_imp hxy.le.trans).symm
  · next hnot =>
      refine ⟨fun hac => ⟨hac, fun hcb => hnot ?_⟩, And.left⟩
      obtain ⟨x, hx, z, hz, hxz⟩ := le_iff.mp hac
      obtain ⟨_, _, y, hy, -⟩ := lt_iff.mp hcb
      rw [lt_of_values hx hy]
      exact hxz.trans_lt ((lt_of_values hz hy).mp hcb)

/-! ## What the last of a list says

Preferences are written into a table, where a later entry takes the place of
an earlier one, and so are the parameters of an entry. `LastSays` is that rule
without the table. -/

section LastSays

variable {α β : Type}

/-- The last item of a list that says something is heard; if none does, a default
holds. -/
inductive LastSays (tells : α → β → Prop) (default : β) (items : List α) : β → Prop
  | said {front behind : List α} {item : α} {value : β}
      (split : items = front ++ item :: behind) (heard : tells item value)
      (last : ∀ x ∈ behind, ∀ y, ¬ tells x y) : LastSays tells default items value
  | silent (none : ∀ x ∈ items, ∀ y, ¬ tells x y) :
      LastSays tells default items default

theorem lastSays_iff {tells : α → β → Prop} {f : α → Option β}
    (hf : ∀ a b, tells a b ↔ f a = some b) {default : β} {items : List α} {b : β} :
    LastSays tells default items b ↔
      b = ((items.filterMap f).getLast?).getD default := by
  have hsilent : ∀ l : List α, (∀ x ∈ l, ∀ y, ¬ tells x y) ↔ ∀ x ∈ l, f x = none := by
    intro l
    simp only [hf, Option.eq_none_iff_forall_ne_some, ne_eq]
  have hsaid : ∀ v, (items.filterMap f).getLast? = some v ↔
      ∃ front item behind, items = front ++ item :: behind ∧ f item = some v ∧
        ∀ x ∈ behind, f x = none := by
    intro v
    rw [List.getLast?_filterMap, List.findSome?_eq_some_iff]
    constructor
    · rintro ⟨behind, item, front, hreverse, hitem, hbehind⟩
      refine ⟨front.reverse, item, behind.reverse, ?_, hitem, by simpa using hbehind⟩
      simpa using congrArg List.reverse hreverse
    · rintro ⟨front, item, behind, rfl, hitem, hbehind⟩
      exact ⟨behind.reverse, item, front.reverse,
        by simp, hitem, by simpa using hbehind⟩
  constructor
  · intro h
    cases h with
    | said split heard last =>
        rw [(hsaid b).mpr ⟨_, _, _, split, (hf _ _).mp heard, (hsilent _).mp last⟩]
        rfl
    | silent none =>
        rw [List.filterMap_eq_nil_iff.mpr ((hsilent items).mp none)]
        rfl
  · rintro rfl
    cases hlast : (items.filterMap f).getLast? with
    | none =>
        rw [List.getLast?_eq_none_iff, List.filterMap_eq_nil_iff] at hlast
        exact .silent ((hsilent items).mpr hlast)
    | some v =>
        obtain ⟨front, item, behind, split, hitem, hbehind⟩ := (hsaid v).mp hlast
        exact .said split ((hf _ _).mpr hitem) ((hsilent behind).mpr hbehind)

end LastSays

/-- The entries of a header, blank ones among them. -/
def entries (accept : String) : List (List Char) := splitAt ',' accept.toList

/-- The range that an entry names, whatever its parameters, its blanks and its case. -/
def rangeOf (entry : List Char) : String := mediaType (String.ofList entry)

/-- A parameter named `q` gives a quality, which is zero if it is not a number. -/
def Gives (parameter : List Char) (quality : Binary64) : Prop :=
  lower (String.ofList (trim (before '=' parameter))) = "q" ∧
    (decimalNumber? (String.ofList (after '=' parameter))).getD .zero = quality

/-- What an entry is worth. -/
def Weighs (entry : List Char) : Binary64 → Prop :=
  LastSays Gives .one ((splitAt ';' entry).drop 1)

/-- What a range is worth to a client that sends a header. -/
def Rates (accept range : String) : Binary64 → Prop :=
  LastSays (fun entry quality => rangeOf entry = range ∧ Weighs entry quality) .zero
    (entries accept)

theorem weighs_iff {entry : List Char} {quality : Binary64} :
    Weighs entry quality ↔ quality = (Preference.ofEntry entry).quality := by
  refine lastSays_iff fun parameter value => ?_
  rw [Gives, qualityOf?]
  split
  · next hname => simp [hname]
  · next hname => simp [hname]

/-- The quality that an entry gives a range, if it names it. -/
def qualityFor? (range : String) (entry : List Char) : Option Binary64 :=
  if rangeOf entry = range then some (Preference.ofEntry entry).quality else none

theorem qualityFor?_of_eq {range : String} {entry : List Char}
    (h : rangeOf entry = range) :
    qualityFor? range entry = some (Preference.ofEntry entry).quality := by
  rw [qualityFor?, if_pos h]

theorem qualityFor?_of_ne {range : String} {entry : List Char}
    (h : rangeOf entry ≠ range) : qualityFor? range entry = none := by
  rw [qualityFor?, if_neg h]

theorem rates_iff_getLast? {accept range : String} {quality : Binary64} :
    Rates accept range quality ↔
      quality =
        (((entries accept).filterMap (qualityFor? range)).getLast?).getD .zero := by
  refine lastSays_iff fun entry value => ?_
  rw [weighs_iff, qualityFor?]
  split
  · next hrange => simp [hrange, eq_comm]
  · next hrange => simp [hrange]

theorem range_ofEntry (entry : List Char) :
    (Preference.ofEntry entry).range = rangeOf entry := rfl

theorem rangeOf_blank {entry : List Char} (h : trim entry = []) :
    rangeOf entry = "" := by
  have hblank : trim (before ';' entry) = [] :=
    trim_eq_nil_iff.mpr fun c hc => trim_eq_nil_iff.mp h c (of_mem_before hc).1
  rw [rangeOf, mediaType, String.toList_ofList, hblank]
  rfl

theorem qualityIn_eq (ps : List Preference) (range : String) :
    qualityIn ps range = ((ps.filterMap fun p =>
      if p.range = range then some p.quality else none).getLast?).getD .zero := by
  rw [qualityIn, List.getLast?_filterMap]
  induction ps.reverse with
  | nil => rfl
  | cons p rest ih =>
      by_cases hp : p.range = range
      · rw [List.find?_cons_of_pos (by simpa using hp), List.findSome?_cons, if_pos hp]
        rfl
      · rw [List.find?_cons_of_neg (by simpa using hp), List.findSome?_cons, if_neg hp]
        exact ih

/-- Blank entries name nothing, so it does not matter that they are left out. -/
theorem qualityIn_preferences {accept range : String} (hrange : range ≠ "") :
    qualityIn (preferences accept) range =
      (((entries accept).filterMap (qualityFor? range)).getLast?).getD .zero := by
  have hentry : ∀ entry, (if !(trim entry).isEmpty then
      if (Preference.ofEntry entry).range = range then
        some (Preference.ofEntry entry).quality
      else none else none) = qualityFor? range entry := by
    intro entry
    rw [qualityFor?, range_ofEntry]
    by_cases hblank : trim entry = []
    · have hne : rangeOf entry ≠ range := by
        rw [rangeOf_blank hblank]
        exact Ne.symm hrange
      simp only [if_neg hne, ite_self]
    · exact if_pos (by simpa using hblank)
  rw [qualityIn_eq, preferences, ← entries, List.filterMap_map, List.filterMap_filter]
  simp only [Function.comp_apply, hentry]

theorem rates_iff {accept range : String} (hrange : range ≠ "") {quality : Binary64} :
    Rates accept range quality ↔ quality = qualityIn (preferences accept) range := by
  rw [qualityIn_preferences hrange, rates_iff_getLast?]

/-! ## The ranking rule

The comparison is made through a chain of maxima, and a maximum passes over
what is not a number unless that comes first. So the rule is stated as the
code has it, with the two wildcards not above HTML, and then as a ranking for
qualities that are numbers. -/

/-- The ranges that HTML and plain text fall into. -/
def rankedRanges : List String := ["text/html", "text/plain", "text/*", "*/*"]

theorem ne_empty_of_ranked {range : String} (h : range ∈ rankedRanges) :
    range ≠ "" := by
  rintro rfl
  exact absurd h (by decide)

/-- HTML is liked, and no less than any range that plain text falls into. -/
def RanksFirst (q : String → Binary64) : Prop :=
  lt .zero (q "text/html") = true ∧
    ∀ range ∈ ["text/plain", "text/*", "*/*"], le (q range) (q "text/html") = true

theorem prefersHtml_eq_true_iff {accept : String} {q : String → Binary64}
    (hq : qualityIn (preferences accept) = q) :
    prefersHtml accept = true ↔
      lt .zero (q "text/html") = true ∧ le (q "text/plain") (q "text/html") = true ∧
        ¬ lt (q "text/html") (q "text/*") = true ∧
          ¬ lt (q "text/html") (q "*/*") = true := by
  subst hq
  rw [prefersHtml]
  split
  · next hle =>
      refine ⟨fun h => absurd h Bool.false_ne_true, ?_⟩
      rintro ⟨hpositive, hplain, -⟩
      exact absurd hle ((zero_lt_iff hplain).mp hpositive)
  · next hnot =>
      rw [plainQuality, le_better_iff, le_better_iff]
      constructor
      · rintro ⟨⟨hplain, htext⟩, hany⟩
        exact ⟨(zero_lt_iff hplain).mpr hnot, hplain, htext, hany⟩
      · rintro ⟨-, hplain, htext, hany⟩
        exact ⟨⟨hplain, htext⟩, hany⟩

/-- HTML is sent exactly if its quality is above zero, is no lower than that of
`text/plain`, and neither `text/*` nor `*/*` has a greater one. It then ranks
first exactly if these two qualities are numbers. -/
theorem prefersHtml_iff (accept : String) :
    ∃ q : String → Binary64,
      (∀ range ∈ rankedRanges, ∀ quality, Rates accept range quality ↔
        quality = q range) ∧
      (prefersHtml accept = true ↔
        lt .zero (q "text/html") = true ∧ le (q "text/plain") (q "text/html") = true ∧
          ¬ lt (q "text/html") (q "text/*") = true ∧
            ¬ lt (q "text/html") (q "*/*") = true) ∧
      ((prefersHtml accept = true ↔ RanksFirst q) ↔
        (prefersHtml accept = true → q "text/*" ≠ .nan ∧ q "*/*" ≠ .nan)) := by
  have hprefers := prefersHtml_eq_true_iff (rfl : qualityIn (preferences accept) = _)
  refine ⟨qualityIn (preferences accept),
    fun range hrange quality => rates_iff (ne_empty_of_ranked hrange), hprefers, ?_⟩
  have hranks : RanksFirst (qualityIn (preferences accept)) ↔
      prefersHtml accept = true ∧
        qualityIn (preferences accept) "text/*" ≠ .nan ∧
        qualityIn (preferences accept) "*/*" ≠ .nan := by
    rw [hprefers]
    generalize qualityIn (preferences accept) = q
    simp only [RanksFirst, List.forall_mem_cons, List.not_mem_nil, false_imp_iff,
      implies_true, and_true]
    constructor
    · rintro ⟨hpositive, hplain, htext, hany⟩
      obtain ⟨_, _, y, hhtml, -⟩ := le_iff.mp hplain
      obtain ⟨htext, htext'⟩ := (le_iff_not_lt hhtml).mp htext
      obtain ⟨hany, hany'⟩ := (le_iff_not_lt hhtml).mp hany
      exact ⟨⟨hpositive, hplain, htext, hany⟩, htext', hany'⟩
    · rintro ⟨⟨hpositive, hplain, htext, hany⟩, htext', hany'⟩
      obtain ⟨_, _, y, hhtml, -⟩ := le_iff.mp hplain
      exact ⟨hpositive, hplain, (le_iff_not_lt hhtml).mpr ⟨htext, htext'⟩,
        (le_iff_not_lt hhtml).mpr ⟨hany, hany'⟩⟩
  rw [hranks]
  constructor
  · exact fun h hprefers => (h.mp hprefers).2
  · exact fun h => ⟨fun hprefers => ⟨hprefers, h hprefers⟩, And.left⟩

/-- The maximum is no upper bound of what is not a number. -/
theorem prefersHtml_despite_nan :
    prefersHtml "text/html, text/*;q=nan" = true ∧
      Rates "text/html, text/*;q=nan" "text/html" .one ∧
      Rates "text/html, text/*;q=nan" "text/*" .nan ∧ le .nan .one = false := by
  refine ⟨by decide +kernel, (rates_iff (by decide)).mpr (by decide +kernel),
    (rates_iff (by decide)).mpr (by decide +kernel), rfl⟩

/-- For each range that matters, the last entry that names it. -/
def deciding (items : List (List Char)) : List (List Char) :=
  rankedRanges.filterMap fun range => (items.filter (rangeOf · == range)).getLast?

/-- The header with these entries. -/
def headerOf (items : List (List Char)) : String :=
  ",".intercalate (items.map String.ofList)

theorem entries_headerOf {items : List (List Char)} (hne : items ≠ [])
    (h : ∀ entry ∈ items, ',' ∉ entry) : entries (headerOf items) = items := by
  have hback : (items.map String.ofList).map (·.toList) = items := by
    rw [List.map_map]
    exact List.map_id'' (fun _ => String.toList_ofList) items
  rw [entries, headerOf, String.toList_intercalate, hback]
  exact splitAt_intercalate h hne

theorem mem_of_mem_deciding {items : List (List Char)} {entry : List Char}
    (h : entry ∈ deciding items) : entry ∈ items := by
  obtain ⟨range, -, hlast⟩ := List.mem_filterMap.mp h
  exact (List.mem_filter.mp (List.mem_of_getLast? hlast)).1

/-- The header without entries has one all the same, which is blank. -/
theorem filterMap_headerOf {items : List (List Char)}
    (h : ∀ entry ∈ items, ',' ∉ entry) {range : String} (hrange : range ≠ "") :
    (entries (headerOf items)).filterMap (qualityFor? range) =
      items.filterMap (qualityFor? range) := by
  by_cases hne : items = []
  · subst hne
    have hblank : qualityFor? range [] = none := qualityFor?_of_ne (by
      rw [rangeOf_blank rfl]
      exact Ne.symm hrange)
    rw [show entries (headerOf []) = [[]] from rfl, List.filterMap_cons_none hblank]
  · rw [entries_headerOf hne h]

theorem getLast?_filterMap_qualityFor? (range : String) (items : List (List Char)) :
    (items.filterMap (qualityFor? range)).getLast? =
      (items.filter (rangeOf · == range)).getLast?.map fun e =>
        (Preference.ofEntry e).quality := by
  rw [← List.getLast?_map]
  congr 1
  induction items with
  | nil => rfl
  | cons entry rest ih =>
      by_cases hentry : rangeOf entry = range
      · rw [List.filterMap_cons_some (qualityFor?_of_eq hentry),
          List.filter_cons_of_pos (by simpa using hentry), List.map_cons, ih]
      · rw [List.filterMap_cons_none (qualityFor?_of_ne hentry),
          List.filter_cons_of_neg (by simpa using hentry), ih]

theorem filterMap_of_unique {α β : Type} {f : α → Option β} {l : List α} {a : α}
    (hnodup : l.Nodup) (ha : a ∈ l) (hf : ∀ x, x ≠ a → f x = none) :
    l.filterMap f = (f a).toList := by
  obtain ⟨front, behind, rfl⟩ := List.append_of_mem ha
  rw [List.perm_middle.nodup_iff, List.nodup_cons, List.mem_append, not_or] at hnodup
  have hfront : front.filterMap f = [] :=
    List.filterMap_eq_nil_iff.mpr fun x hx => hf x fun h => hnodup.1.1 (h ▸ hx)
  have hbehind : behind.filterMap f = [] :=
    List.filterMap_eq_nil_iff.mpr fun x hx => hf x fun h => hnodup.1.2 (h ▸ hx)
  rw [List.filterMap_append, hfront, List.nil_append]
  cases hfa : f a with
  | none => rw [List.filterMap_cons_none hfa, hbehind, Option.toList_none]
  | some b => rw [List.filterMap_cons_some hfa, hbehind, Option.toList_some]

/-- Of the deciding entries, one at most says anything about a range. -/
theorem filterMap_deciding {range : String} (hrange : range ∈ rankedRanges)
    (items : List (List Char)) :
    (deciding items).filterMap (qualityFor? range) =
      ((items.filterMap (qualityFor? range)).getLast?).toList := by
  have hlast : ∀ named, ∀ entry ∈ (items.filter (rangeOf · == named)).getLast?,
      rangeOf entry = named := by
    intro named entry hentry
    simpa using (List.mem_filter.mp (List.mem_of_getLast? hentry)).2
  rw [deciding, List.filterMap_filterMap,
    filterMap_of_unique (by decide) hrange, getLast?_filterMap_qualityFor?]
  · cases hnamed : (items.filter (rangeOf · == range)).getLast? with
    | none => rfl
    | some entry =>
        rw [Option.bind_some, qualityFor?_of_eq (hlast range entry hnamed),
          Option.map_some]
  · intro named hne
    cases hnamed : (items.filter (rangeOf · == named)).getLast? with
    | none => rfl
    | some entry =>
        have hother : rangeOf entry ≠ range := by
          rw [hlast named entry hnamed]
          exact hne
        rw [Option.bind_some, qualityFor?_of_ne hother]

/-- At most one item has no order to lose. -/
theorem getLast?_of_perm_toList {α : Type} {l : List α} {o : Option α}
    (h : l.Perm o.toList) : l.getLast? = o := by
  cases o with
  | none => rw [List.perm_nil.mp h, List.getLast?_nil]
  | some a => rw [List.perm_singleton.mp h, List.getLast?_singleton]

theorem getLast?_of_perm_deciding {range : String} (hrange : range ∈ rankedRanges)
    {kept items : List (List Char)} (h : kept.Perm (deciding items)) :
    (kept.filterMap (qualityFor? range)).getLast? =
      (items.filterMap (qualityFor? range)).getLast? := by
  have hperm := h.filterMap (qualityFor? range)
  rw [filterMap_deciding hrange] at hperm
  exact getLast?_of_perm_toList hperm

/-- The answer reads nothing of the header but the qualities of four ranges. -/
theorem prefersHtml_congr {accept other : String}
    (h : ∀ range ∈ rankedRanges,
      ((entries accept).filterMap (qualityFor? range)).getLast? =
        ((entries other).filterMap (qualityFor? range)).getLast?) :
    prefersHtml accept = prefersHtml other := by
  have hquality : ∀ range ∈ rankedRanges,
      qualityIn (preferences accept) range = qualityIn (preferences other) range := by
    intro range hrange
    have hne := ne_empty_of_ranked hrange
    rw [qualityIn_preferences hne, qualityIn_preferences hne, h range hrange]
  simp only [prefersHtml, plainQuality,
    hquality _ (show "text/html" ∈ rankedRanges by decide),
    hquality _ (show "text/plain" ∈ rankedRanges by decide),
      hquality _ (show "text/*" ∈ rankedRanges by decide),
    hquality _ (show "*/*" ∈ rankedRanges by decide)]

/-- Only the last entry for each range that matters counts: a header of nothing
but these, in whatever order, is answered alike, and so is any header that has
them as its deciding ones. -/
theorem prefersHtml_of_deciding (accept : String) :
    (∀ kept, kept.Perm (deciding (entries accept)) →
      prefersHtml (headerOf kept) = prefersHtml accept) ∧
    ∀ other, (deciding (entries other)).Perm (deciding (entries accept)) →
      prefersHtml other = prefersHtml accept := by
  constructor
  · intro kept hkept
    refine prefersHtml_congr fun range hrange => ?_
    have hcomma : ∀ entry ∈ kept, ',' ∉ entry := fun entry hentry =>
      notMem_of_mem_splitAt (mem_of_mem_deciding (hkept.mem_iff.mp hentry))
    rw [filterMap_headerOf hcomma (ne_empty_of_ranked hrange),
      getLast?_of_perm_deciding hrange hkept]
  · intro other hother
    refine prefersHtml_congr fun range hrange => ?_
    rw [← getLast?_of_perm_deciding hrange hother,
      getLast?_of_perm_deciding hrange (List.Perm.refl _)]

/-- The answer is the same with the entries that decide it in reverse. -/
theorem prefersHtml_of_deciding_reverse :
    prefersHtml " text/plain;q=nan,*/* ;Q=-inf,TEXT/Html\t; q=x;q=+0.5" =
      prefersHtml ("text/html;q=9,, image/png;q=inf,TEXT/Html\t; q=x;q=+0.5" ++
        ",*/* ;Q=-inf, text/plain;q=nan") :=
  (prefersHtml_of_deciding _).1
    [" text/plain;q=nan".toList, "*/* ;Q=-inf".toList,
      "TEXT/Html\t; q=x;q=+0.5".toList]
    (by decide +kernel)

end TapeMips.Http
