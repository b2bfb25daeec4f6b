import Mathlib.Data.List.TakeWhile
import ModuleAtlas.Model.Runner
import ModuleAtlas.Proofs.Authorities

/-!
# Hosts that are checked and hosts that are asked

The check of an address and the request to it read the address in different
ways.  The request drops every blank in front of an address and a label behind
them; the check drops only control characters and the space in front, and tabs
and line breaks everywhere.  Here the part with the host that a request goes to
is set against the part that the check sees.
-/

namespace ModuleAtlas.Net

open Text (isBlank)

/-! ## What a request asks -/

/-- The scheme of an address to which requests are made. -/
def IsWebScheme (scheme : List Char) : Prop :=
  scheme.map Char.toLower = "http".toList ∨ scheme.map Char.toLower = "https".toList

/-- A request to an address goes to the part between the two slashes behind a
scheme of the web and the next slash, question mark or hash. -/
def Asks (address asked : List Char) : Prop :=
  ∃ scheme rest,
    address = scheme ++ ':' :: '/' :: '/' :: (asked ++ rest) ∧
      IsWebScheme scheme ∧
      asked ≠ [] ∧
      (∀ character ∈ asked, endsNetloc character = false) ∧
      ∀ character, rest.head? = some character → endsNetloc character = true

/-- The part without the port behind its last colon. A colon inside brackets
begins no port. -/
def withoutPort (asked : List Char) : List Char :=
  match asked.reverse.dropWhile fun character => character != ':' && character != ']' with
  | ':' :: before => before.reverse
  | _ => asked

/-- The host that a request to a part goes to: the part without its port, and
without the brackets around a numeric address. -/
def dialledHost (asked : List Char) : List Char :=
  let named := withoutPort asked
  if named.head? = some '[' ∧ named.getLast? = some ']' then (named.drop 1).dropLast
  else named

/-! ## What only a request drops -/

/-- The label that a request drops in front of an address. -/
def label : List Char := "URL:".toList

/-- The address without what a request drops in front of it. -/
def withoutFront (address : List Char) : List Char :=
  let front := address.dropWhile isBlank
  if label.isPrefixOf front then (front.drop label.length).dropWhile isBlank else front

/-- Something stands in front of the address that only a request drops: a label,
or a blank that is neither a control character nor the space. -/
def HasHiddenFront (address : List Char) : Prop :=
  label <+: address.dropWhile isBlank ∨
    ∃ character ∈ address.takeWhile isBlank, isControlOrSpace character = false

/-! ## Letters of a scheme -/

/-- What is checked of a text character by character holds of each of them. -/
theorem forall_mem_of_all
    {property : Char → Prop} [DecidablePred property] {characters : List Char}
    (checked : characters.all (fun character => decide (property character)) = true) :
    ∀ character ∈ characters, property character := by
  intro character member
  exact of_decide_eq_true (List.all_eq_true.mp checked character member)

theorem isAlpha_of_toLower_mem
    {character : Char} (member : character.toLower ∈ "https".toList) :
    character.isAlpha = true := by
  unfold Char.toLower at member
  split at member
  · next upper =>
      have capital : character.isUpper = true := decide_eq_true upper
      exact Bool.or_eq_true_iff.mpr (Or.inl capital)
  · have plain : ∀ letter ∈ "https".toList, Char.isAlpha letter = true :=
      forall_mem_of_all (by decide)
    exact plain character member

theorem IsWebScheme.isAlpha
    {scheme : List Char} (web : IsWebScheme scheme) :
    ∀ character ∈ scheme, character.isAlpha = true := by
  intro character member
  apply isAlpha_of_toLower_mem
  have lowered : character.toLower ∈ scheme.map Char.toLower :=
    List.mem_map_of_mem member
  have shorter : ∀ letter ∈ "http".toList, letter ∈ "https".toList :=
    forall_mem_of_all (by decide)
  rcases web with http | https
  · rw [http] at lowered
    exact shorter _ lowered
  · rwa [https] at lowered

theorem IsWebScheme.ne_nil {scheme : List Char} (web : IsWebScheme scheme) : scheme ≠ [] := by
  rintro rfl
  rcases web with http | https
  · cases http
  · cases https

theorem toNat_of_isAlpha {character : Char} (alpha : character.isAlpha = true) :
    65 ≤ character.toNat ∧ character.toNat ≤ 122 := by
  have value : character.toNat = character.val.toNat := rfl
  rcases Bool.or_eq_true_iff.mp alpha with upper | lower
  · have bounds : 65 ≤ character.val.toNat ∧ character.val.toNat ≤ 90 := of_decide_eq_true upper
    omega
  · obtain ⟨first, last⟩ := Bool.and_eq_true_iff.mp lower
    have least : 97 ≤ character.val.toNat := of_decide_eq_true first
    have most : character.val.toNat ≤ 122 := of_decide_eq_true last
    omega

/-- A character that neither of the two readers drops or stops at. -/
structure Stays (character : Char) : Prop where
  notBlank : isBlank character = false
  notControl : isControlOrSpace character = false
  notDropped : isDropped character = false
  inScheme : isSchemeChar character = true
  ne_colon : character ≠ ':'
  ne_slash : character ≠ '/'

theorem letter_stays {character : Char} (alpha : character.isAlpha = true) :
    Stays character := by
  have bounds := toNat_of_isAlpha alpha
  have different : ∀ other : Char, other.toNat < 65 → character ≠ other := by
    intro other small same
    rw [← same] at small
    omega
  constructor
  · simp [Text.isBlank]
    omega
  · simp [isControlOrSpace]
    omega
  · simp [isDropped, different '\t' (by decide), different '\r' (by decide),
      different '\n' (by decide)]
  · simp [isSchemeChar, Char.isAlphanum, alpha]
  · exact different ':' (by decide)
  · exact different '/' (by decide)

/-! ## What the check sees where nothing is hidden -/

theorem takeWhile_append_of_stop
    {property : Char → Bool} {inside rest : List Char}
    (holds : ∀ character ∈ inside, property character = true)
    (stops : ∀ character, rest.head? = some character → property character = false) :
    (inside ++ rest).takeWhile property = inside := by
  rw [List.takeWhile_append_of_pos holds]
  cases rest with
  | nil => simp
  | cons first others => simp [stops first rfl]

/-- Behind a scheme stands what follows its colon. -/
theorem behindScheme_append
    {scheme rest : List Char}
    (letters : ∀ character ∈ scheme, character.isAlpha = true) (nonempty : scheme ≠ []) :
    behindScheme (scheme ++ ':' :: rest) = rest := by
  have schemeFound : (scheme ++ ':' :: rest).takeWhile (· != ':') = scheme := by
    apply takeWhile_append_of_stop
    · intro character member
      simpa using (letter_stays (letters character member)).ne_colon
    · intro character first
      cases first
      rfl
  have begins : (scheme.head?.map Char.isAlpha).getD false = true := by
    cases scheme with
    | nil => exact absurd rfl nonempty
    | cons first others => exact letters first List.mem_cons_self
  have allowed : scheme.all isSchemeChar = true := by
    rw [List.all_eq_true]
    intro character member
    exact (letter_stays (letters character member)).inScheme
  unfold behindScheme
  rw [schemeFound]
  simp [begins, allowed]

theorem Asks.ne_nil {address asked : List Char} (asks : Asks address asked) : address ≠ [] := by
  obtain ⟨scheme, rest, rfl, _⟩ := asks
  simp

theorem Asks.eq_takeWhile
    {address asked : List Char} (asks : Asks address asked) :
    asked = ((behindScheme address).drop 2).takeWhile fun c => !endsNetloc c := by
  obtain ⟨scheme, rest, rfl, web, _, inside, stops⟩ := asks
  rw [behindScheme_append web.isAlpha web.ne_nil]
  symm
  apply takeWhile_append_of_stop
  · intro character member
    simpa using inside character member
  · intro character first
    simpa using stops character first

/-- A request to an address asks one part. -/
theorem Asks.unique
    {address asked other : List Char}
    (asks : Asks address asked) (asksOther : Asks address other) :
    asked = other :=
  asks.eq_takeWhile.trans asksOther.eq_takeWhile.symm

/-- Whether the check keeps a character behind the front of an address. -/
def isKept (character : Char) : Bool :=
  !isDropped character

/-- The part that the check sees behind the front of an address. -/
def partOf (characters : List Char) : List Char :=
  match behindScheme (characters.filter isKept) with
  | '/' :: '/' :: rest => rest.takeWhile fun c => !endsNetloc c
  | _ => []

theorem netloc_eq_partOf (address : List Char) :
    netloc address = partOf (address.dropWhile isControlOrSpace) := rfl

theorem isKept_of_endsNetloc {character : Char} (ends : endsNetloc character = true) :
    isKept character = true := by
  simp only [endsNetloc, Bool.or_eq_true, beq_iff_eq] at ends
  rcases ends with (rfl | rfl) | rfl
  · decide
  · decide
  · decide

theorem isKept_of_not_isControlOrSpace
    {character : Char} (remains : isControlOrSpace character = false) :
    isKept character = true := by
  cases dropped : isDropped character with
  | false => simp [isKept, dropped]
  | true =>
      simp only [isDropped, Bool.or_eq_true, beq_iff_eq] at dropped
      rcases dropped with (rfl | rfl) | rfl
      · cases remains
      · cases remains
      · cases remains

/-- The check reads the part that a request asks up to its end, without tabs and
line breaks. -/
theorem partOf_append
    {scheme asked rest : List Char} (web : IsWebScheme scheme)
    (inside : ∀ character ∈ asked, endsNetloc character = false)
    (stops : ∀ character, rest.head? = some character → endsNetloc character = true) :
    partOf (scheme ++ ':' :: '/' :: '/' :: (asked ++ rest)) = asked.filter isKept := by
  have schemeKept : scheme.filter isKept = scheme := by
    rw [List.filter_eq_self]
    intro character member
    simpa [isKept] using (letter_stays (web.isAlpha character member)).notDropped
  have filtered :
      (scheme ++ ':' :: '/' :: '/' :: (asked ++ rest)).filter isKept =
        scheme ++ ':' :: '/' :: '/' :: (asked.filter isKept ++ rest.filter isKept) := by
    rw [List.filter_append, schemeKept, ← List.filter_append]
    rfl
  unfold partOf
  rw [filtered, behindScheme_append web.isAlpha web.ne_nil]
  apply takeWhile_append_of_stop
  · intro character member
    simpa using inside character (List.mem_filter.mp member).1
  · intro character first
    cases rest with
    | nil => cases first
    | cons other others =>
        have ends := stops other rfl
        rw [List.filter_cons_of_pos (isKept_of_endsNetloc ends)] at first
        cases first
        simpa using ends

theorem isControlOrSpace_of_mem
    {characters : List Char}
    (none : ¬∃ character ∈ characters, isControlOrSpace character = false) :
    ∀ character ∈ characters, isControlOrSpace character = true := by
  intro character member
  cases remains : isControlOrSpace character with
  | true => rfl
  | false => exact absurd ⟨character, member, remains⟩ none

/-- A reader of an address that begins with its scheme sees the part that a request
to it asks, without tabs and line breaks. -/
theorem netloc_of_asks {address asked : List Char} (asks : Asks address asked) :
    netloc address = asked.filter isKept := by
  obtain ⟨scheme, rest, shape, web, _, inside, stops⟩ := asks
  have headStays :
      (scheme ++ ':' :: '/' :: '/' :: (asked ++ rest)).dropWhile isControlOrSpace =
        scheme ++ ':' :: '/' :: '/' :: (asked ++ rest) := by
    cases scheme with
    | nil => exact absurd rfl web.ne_nil
    | cons first others =>
        have letter := web.isAlpha first List.mem_cons_self
        rw [List.cons_append, List.dropWhile_cons, (letter_stays letter).notControl]
        rfl
  rw [netloc_eq_partOf, shape, headStays]
  exact partOf_append web inside stops

/-- Where nothing is hidden, the check sees the part that a request asks. -/
theorem netloc_of_not_hasHiddenFront
    {address asked : List Char} (visible : ¬HasHiddenFront address)
    (asks : Asks (withoutFront address) asked) :
    netloc address = asked.filter isKept := by
  have noLabel : ¬label <+: address.dropWhile isBlank := fun found => visible (Or.inl found)
  have dropped := isControlOrSpace_of_mem fun found => visible (Or.inr found)
  have front : withoutFront address = address.dropWhile isBlank := by
    unfold withoutFront
    rw [if_neg]
    rwa [List.isPrefixOf_iff_prefix]
  rw [front] at asks
  rw [netloc_eq_partOf, ← List.takeWhile_append_dropWhile (p := isBlank) (l := address),
    List.dropWhile_append_of_pos dropped, ← netloc_eq_partOf]
  exact netloc_of_asks asks

/-! ## What the check sees of a hidden front -/

/-- The check sees no part behind a character that it keeps, and that neither
begins a scheme nor is a slash. -/
theorem partOf_cons_eq_nil
    {first : Char} {others : List Char} (kept : isKept first = true)
    (noLetter : first.isAlpha = false) (noSlash : first ≠ '/') :
    partOf (first :: others) = [] := by
  have unchanged :
      behindScheme (first :: others.filter isKept) = first :: others.filter isKept := by
    unfold behindScheme
    by_cases colon : first = ':'
    · simp [colon]
    · simp [colon, noLetter]
  unfold partOf
  rw [List.filter_cons_of_pos kept, unchanged]
  split
  · next rest shape =>
      exact absurd (List.cons.inj shape).1 noSlash
  · rfl

/-- Behind a blank that only a request drops the check sees no part. -/
theorem netloc_of_blank
    {address : List Char}
    (found : ∃ character ∈ address.takeWhile isBlank, isControlOrSpace character = false) :
    netloc address = [] := by
  rw [netloc_eq_partOf]
  induction address with
  | nil =>
      obtain ⟨_, member, _⟩ := found
      cases member
  | cons first others inductionHypothesis =>
      obtain ⟨character, member, remains⟩ := found
      cases blank : isBlank first with
      | false =>
          rw [List.takeWhile_cons_of_neg (by simp [blank])] at member
          cases member
      | true =>
          rw [List.takeWhile_cons_of_pos blank] at member
          cases control : isControlOrSpace first with
          | true =>
              rw [List.dropWhile_cons_of_pos control]
              apply inductionHypothesis
              rcases List.mem_cons.mp member with rfl | later
              · rw [control] at remains
                cases remains
              · exact ⟨character, later, remains⟩
          | false =>
              rw [List.dropWhile_cons_of_neg (by simp [control])]
              have noLetter : first.isAlpha = false := by
                cases letter : first.isAlpha with
                | false => rfl
                | true =>
                    rw [(letter_stays letter).notBlank] at blank
                    cases blank
              apply partOf_cons_eq_nil (isKept_of_not_isControlOrSpace control) noLetter
              rintro rfl
              cases blank

/-- What the check keeps of blanks before a letter begins with no slash. -/
theorem head?_filter_ne_slash
    {blanks front : List Char} (blank : ∀ character ∈ blanks, isBlank character = true)
    (letter : ∀ character, front.head? = some character → character.isAlpha = true) :
    ((blanks ++ front).filter isKept).head? ≠ some '/' := by
  induction blanks with
  | nil =>
      cases front with
      | nil => simp
      | cons first others =>
          have stays := letter_stays (letter first rfl)
          have kept : isKept first = true := by simp [isKept, stays.notDropped]
          rw [List.nil_append, List.filter_cons_of_pos kept]
          simpa using stays.ne_slash
  | cons first others inductionHypothesis =>
      have rest := inductionHypothesis fun character member =>
        blank character (List.mem_cons_of_mem first member)
      cases kept : isKept first with
      | false =>
          rwa [List.cons_append, List.filter_cons_of_neg (by simp [kept])]
      | true =>
          rw [List.cons_append, List.filter_cons_of_pos kept]
          have firstBlank := blank first List.mem_cons_self
          intro slash
          cases slash
          cases firstBlank

/-- Behind a label the check sees no part. -/
theorem partOf_label
    {blanks front : List Char} (blank : ∀ character ∈ blanks, isBlank character = true)
    (letter : ∀ character, front.head? = some character → character.isAlpha = true) :
    partOf (label ++ (blanks ++ front)) = [] := by
  have filtered :
      (label ++ (blanks ++ front)).filter isKept =
        ['U', 'R', 'L'] ++ ':' :: (blanks ++ front).filter isKept := by
    rw [List.filter_append]
    rfl
  unfold partOf
  rw [filtered, behindScheme_append (forall_mem_of_all (by decide)) (by decide)]
  split
  · next rest shape =>
      have slash := head?_filter_ne_slash blank letter
      rw [shape] at slash
      exact absurd rfl slash
  · rfl

theorem Asks.head?_isAlpha
    {address asked : List Char} (asks : Asks address asked) :
    ∀ character, address.head? = some character → character.isAlpha = true := by
  obtain ⟨scheme, rest, rfl, web, _⟩ := asks
  cases scheme with
  | nil => exact absurd rfl web.ne_nil
  | cons first others =>
      intro character found
      cases found
      exact web.isAlpha first List.mem_cons_self

/-- Where something is hidden in front, the check sees no part, whatever the
request asks. -/
theorem netloc_of_hasHiddenFront
    {address asked : List Char} (hidden : HasHiddenFront address)
    (asks : Asks (withoutFront address) asked) :
    netloc address = [] := by
  by_cases found :
      ∃ character ∈ address.takeWhile isBlank, isControlOrSpace character = false
  · exact netloc_of_blank found
  · have labelled : label <+: address.dropWhile isBlank := hidden.resolve_right found
    have dropped := isControlOrSpace_of_mem found
    obtain ⟨behind, shape⟩ := labelled
    have front : withoutFront address = behind.dropWhile isBlank := by
      unfold withoutFront
      rw [← shape, if_pos (List.isPrefixOf_iff_prefix.mpr (List.prefix_append _ _)),
        List.drop_left]
    rw [front] at asks
    have labelStays :
        (label ++ behind).dropWhile isControlOrSpace = label ++ behind := rfl
    rw [netloc_eq_partOf, ← List.takeWhile_append_dropWhile (p := isBlank) (l := address),
      List.dropWhile_append_of_pos dropped, ← shape, labelStays,
      ← List.takeWhile_append_dropWhile (p := isBlank) (l := behind)]
    exact partOf_label (fun character => List.mem_takeWhile_imp) asks.head?_isAlpha

/-! ## Where a model is asked -/

/-- What stands behind the address where a model is asked. -/
def completions : List Char := "/chat/completions".toList

theorem dropWhile_isBlank_append (front : List Char) :
    (front ++ completions).dropWhile isBlank = front.dropWhile isBlank ++ completions := by
  induction front with
  | nil => rfl
  | cons first others inductionHypothesis =>
      cases blank : isBlank first with
      | true =>
          rw [List.cons_append, List.dropWhile_cons_of_pos blank, inductionHypothesis,
            List.dropWhile_cons_of_pos blank]
      | false =>
          rw [List.cons_append, List.dropWhile_cons_of_neg (by simp [blank]),
            List.dropWhile_cons_of_neg (by simp [blank]), List.cons_append]

/-- Only blanks in front can be trimmed from where a model is asked. -/
theorem trimList_append (front : List Char) :
    Text.trimList (front ++ completions) = front.dropWhile isBlank ++ completions := by
  unfold Text.trimList Text.trimWhile Text.dropEndWhile
  rw [dropWhile_isBlank_append, List.reverse_append]
  have stays :
      (completions.reverse ++ (front.dropWhile isBlank).reverse).dropWhile isBlank =
        completions.reverse ++ (front.dropWhile isBlank).reverse := rfl
  rw [stays, List.reverse_append, List.reverse_reverse, List.reverse_reverse]

/-- What stands behind an address makes no label of it. -/
theorem label_prefix_append_iff {front : List Char} :
    label <+: front ++ completions ↔ label <+: front := by
  constructor
  · intro labelled
    rcases List.prefix_or_prefix_of_prefix labelled (List.prefix_append front completions) with
      found | ⟨behind, shape⟩
    · exact found
    · rw [← shape, List.prefix_append_right_inj] at labelled
      cases behind with
      | nil =>
          exact ⟨[], by simpa using shape.symm⟩
      | cons first others =>
          have slash : first = '/' := (List.cons_prefix_cons.mp labelled).1
          have member : '/' ∈ label := by
            rw [← shape, slash]
            exact List.mem_append_right front List.mem_cons_self
          exact absurd member (by decide)
  · intro found
    exact found.trans (List.prefix_append front completions)

/-- What is asked at an address is the address without its front, and what
stands behind it. -/
theorem toList_unwrap_endpoint (address : String) :
    (Model.unwrap (Model.endpoint address)).toList =
      withoutFront address.toList ++ completions := by
  have trimmed :
      Text.trimList (Model.endpoint address).toList =
        address.toList.dropWhile isBlank ++ completions := by
    rw [Model.endpoint, String.toList_append]
    exact trimList_append address.toList
  have unquoted :
      (address.toList.dropWhile isBlank ++ completions).getLast? ≠ some '>' := by
    rw [List.getLast?_append, show completions.getLast? = some 's' from rfl]
    simp
  unfold Model.unwrap withoutFront
  rw [trimmed]
  generalize address.toList.dropWhile isBlank = front at unquoted
  simp only [unquoted, decide_false, Bool.and_false, Bool.false_eq_true, if_false,
    String.toList_ofList, List.isPrefixOf_iff_prefix]
  change (if label <+: front ++ completions then _ else _) = _
  simp only [label_prefix_append_iff]
  by_cases labelled : label <+: front
  · rw [if_pos labelled, if_pos labelled]
    obtain ⟨behind, rfl⟩ := labelled
    rw [List.append_assoc, List.drop_left]
    exact trimList_append behind
  · rw [if_neg labelled, if_neg labelled]

/-- The part that a request asks at an address is not cut in two by the end of
the address. -/
theorem part_not_cut
    {address scheme asked others rest : List Char}
    (noSlash : address.getLast? ≠ some '/') (web : IsWebScheme scheme)
    (inside : ∀ character ∈ asked, endsNetloc character = false)
    (behind : completions = '/' :: others ++ rest) :
    scheme ++ ':' :: '/' :: '/' :: asked ≠ address ++ '/' :: others := by
  intro shape
  rcases List.append_eq_append_iff.mp shape with ⟨front, rfl, tail⟩ | ⟨front, rfl, tail⟩
  · -- The address goes on behind the scheme.
    rcases front with _ | ⟨first, _ | ⟨second, _ | ⟨third, front⟩⟩⟩
    · cases tail
    · have slash : others = '/' :: asked := (List.cons.inj (List.cons.inj tail).2).2.symm
      rw [slash] at behind
      cases behind
    · have colon : first = ':' := (List.cons.inj tail).1.symm
      have slash : second = '/' := (List.cons.inj (List.cons.inj tail).2).1.symm
      apply noSlash
      rw [colon, slash]
      simp
    · have cut : asked = front ++ '/' :: others :=
        (List.cons.inj (List.cons.inj (List.cons.inj tail).2).2).2
      have ends := inside '/' (by simp [cut])
      cases ends
  · -- The scheme goes on behind the address.
    cases front with
    | nil => cases tail
    | cons first front =>
        have slash : first = '/' := (List.cons.inj tail).1.symm
        have letter := web.isAlpha first (by simp)
        rw [slash] at letter
        cases letter

/-- What a request asks at an address that ends in no slash stands in the
address itself. -/
theorem asks_append_iff
    {address asked : List Char} (noSlash : address.getLast? ≠ some '/') :
    Asks (address ++ completions) asked ↔ Asks address asked := by
  constructor
  · intro given
    obtain ⟨scheme, rest, shape, web, nonempty, inside, stops⟩ := given
    have joined :
        address ++ completions = (scheme ++ ':' :: '/' :: '/' :: asked) ++ rest := by
      simp [shape]
    rcases List.append_eq_append_iff.mp joined with ⟨cut, front, tail⟩ | ⟨behind, rfl, rfl⟩
    · cases cut with
      | nil =>
          exact ⟨scheme, [], by simpa using front.symm, web, nonempty, inside, by simp⟩
      | cons first others =>
          have slash : first = '/' := (List.cons.inj tail).1.symm
          rw [slash] at front tail
          exact absurd front (part_not_cut noSlash web inside tail)
    · refine ⟨scheme, behind, by simp, web, nonempty, inside, ?_⟩
      intro character first
      apply stops character
      rw [List.head?_append, first]
      rfl
  · intro given
    obtain ⟨scheme, rest, rfl, web, nonempty, inside, stops⟩ := given
    refine ⟨scheme, rest ++ completions, by simp, web, nonempty, inside, ?_⟩
    intro character first
    cases rest with
    | nil =>
        cases first
        rfl
    | cons other others => exact stops character first

end ModuleAtlas.Net
