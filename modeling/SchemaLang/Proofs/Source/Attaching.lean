import Mathlib.Data.List.Basic
import SchemaLang.Source.Attachment

/-
  Which comments of a list belong to which element. A comment has a
  place, which is what stands in front of it and behind it, and its
  place alone tells the element and the side: it trails the element in
  front if no comma is between them, or if no element follows, and
  leads the next element otherwise. No comment is lost, none is taken
  twice, and their order is kept.

  Main declarations:
    * `Part.Place` and `Part.places`
    * `Part.mem_places_iff`
    * `Attached.ofParts_eq`
    * `Attached.comments_partitioned`
-/

namespace SchemaLang

------------------------------------------------------------
-- Places Of Comments
------------------------------------------------------------

namespace Part

variable {α : Type}

/- The comment, if a part is one. -/
def remark? : Part α → Option Remark
  | .comment remark => some remark
  | _ => none

/- The comments of a list, in the order of the text. -/
def remarks
    (parts : List (Part α)) : List Remark :=
  parts.filterMap remark?

/- Whether a comma comes behind the last element. -/
def endsDivided : List (Part α) → Bool
  | [] => false
  | .comma :: rest => (elements rest).isEmpty || endsDivided rest
  | _ :: rest => endsDivided rest

/- A comment with what stands in front of it and behind it. -/
structure Place (α : Type) where
  front : List (Part α)
  remark : Remark
  back : List (Part α)

/- The places of comments, given what stands in front of all. -/
def placesFrom
    (front : List (Part α)) : List (Part α) → List (Place α)
  | [] => []
  | part :: rest =>
    (part.remark?.map fun remark => ⟨front, remark, rest⟩).toList ++
      placesFrom (front ++ [part]) rest

/- The places of the comments of a list. -/
def places
    (parts : List (Part α)) : List (Place α) :=
  placesFrom [] parts

namespace Place

/- How many elements stand in front of a comment. -/
def index
    (place : Place α) : Nat :=
  (elements place.front).length

/-
  Whether a comment belongs to the element in front of it: there is
  one, and no comma is between them or no element follows.
-/
def isTrailing
    (place : Place α) : Bool :=
  !(elements place.front).isEmpty &&
    (!endsDivided place.front || (elements place.back).isEmpty)

/- Whether a comment trails the element of a number. -/
def trails
    (number : Nat)
    (place : Place α) : Bool :=
  place.isTrailing && place.index == number + 1

/- Whether a comment leads the element of a number. -/
def leads
    (number : Nat)
    (place : Place α) : Bool :=
  !place.isTrailing && place.index == number

end Place

------------------------------------------------------------
-- Cutting A List
------------------------------------------------------------

theorem elements_append
    (front back : List (Part α)) :
    elements (front ++ back) = elements front ++ elements back := by
  induction front with
  | nil => rfl
  | cons part rest ih =>
      cases part with
      | comment remark => exact ih
      | comma => exact ih
      | element item => exact congrArg (item :: ·) ih

theorem elements_comment
    (remark : Remark)
    (rest : List (Part α)) :
    elements (.comment remark :: rest) = elements rest :=
  rfl

theorem elements_comma
    (rest : List (Part α)) :
    elements (.comma :: rest) = elements rest :=
  rfl

theorem elements_element
    (item : α)
    (rest : List (Part α)) :
    elements (.element item :: rest) = item :: elements rest :=
  rfl

theorem remarks_nil : remarks ([] : List (Part α)) = [] :=
  rfl

theorem remarks_comment
    (remark : Remark)
    (rest : List (Part α)) :
    remarks (.comment remark :: rest) = remark :: remarks rest :=
  rfl

theorem remarks_comma
    (rest : List (Part α)) :
    remarks (.comma :: rest) = remarks rest :=
  rfl

theorem remarks_element
    (item : α)
    (rest : List (Part α)) :
    remarks (.element item :: rest) = remarks rest :=
  rfl

theorem elements_append_comment
    (front : List (Part α))
    (remark : Remark) :
    elements (front ++ [Part.comment remark]) = elements front := by
  rw [elements_append, elements_comment, elements, List.append_nil]

theorem elements_append_comma
    (front : List (Part α)) :
    elements (front ++ [Part.comma]) = elements front := by
  rw [elements_append, elements_comma, elements, List.append_nil]

theorem length_elements_append_element
    (front : List (Part α))
    (item : α) :
    (elements (front ++ [Part.element item])).length =
      (elements front).length + 1 := by
  rw [elements_append, elements_element, elements, List.length_append,
    List.length_singleton]

/- Behind a comment it is as divided as in front of it. -/
theorem endsDivided_comment
    (front : List (Part α))
    (remark : Remark) :
    endsDivided (front ++ [Part.comment remark]) = endsDivided front := by
  induction front with
  | nil => rfl
  | cons part rest ih =>
      cases part with
      | comment other => exact ih
      | comma =>
          rw [List.cons_append, endsDivided, ih, elements_append,
            elements_comment, elements, List.append_nil, endsDivided]
      | element item => exact ih

theorem endsDivided_comma
    (front : List (Part α)) :
    endsDivided (front ++ [Part.comma]) = true := by
  induction front with
  | nil => rfl
  | cons part rest ih =>
      cases part with
      | comment remark => exact ih
      | comma => rw [List.cons_append, endsDivided, ih, Bool.or_true]
      | element item => exact ih

theorem endsDivided_element
    (front : List (Part α))
    (item : α) :
    endsDivided (front ++ [Part.element item]) = false := by
  induction front with
  | nil => rfl
  | cons part rest ih =>
      cases part with
      | comment remark => exact ih
      | comma => simp [endsDivided, ih, elements_append, elements]
      | element other => exact ih

theorem remark?_eq_some_iff
    {part : Part α}
    {remark : Remark} :
    part.remark? = some remark ↔ part = .comment remark := by
  cases part <;> simp [remark?]

theorem mem_placesFrom_iff
    {front parts : List (Part α)}
    {place : Place α} :
    place ∈ placesFrom front parts ↔
      ∃ between, place.front = front ++ between ∧
        parts = between ++ .comment place.remark :: place.back := by
  induction parts generalizing front with
  | nil => simp [placesFrom]
  | cons part rest ih =>
      rw [placesFrom, List.mem_append, ih]
      simp only [Option.mem_toList, Option.map_eq_some_iff,
        remark?_eq_some_iff]
      constructor
      · rintro (⟨remark, rfl, rfl⟩ | ⟨between, hFront, rfl⟩)
        · exact ⟨[], (List.append_nil front).symm, rfl⟩
        · exact ⟨part :: between, by simp [hFront], rfl⟩
      · rintro ⟨between, hFront, hParts⟩
        cases between with
        | nil =>
            cases hParts
            rw [List.append_nil] at hFront
            exact .inl ⟨place.remark, rfl, by rw [← hFront]⟩
        | cons first others =>
            cases hParts
            exact .inr ⟨others, by simp [hFront], rfl⟩

/- The places are the ways of cutting a list at a comment. -/
theorem mem_places_iff
    {parts : List (Part α)}
    {place : Place α} :
    place ∈ places parts ↔
      parts = place.front ++ .comment place.remark :: place.back := by
  rw [places, mem_placesFrom_iff]
  simp

theorem map_remark_placesFrom
    (front parts : List (Part α)) :
    (placesFrom front parts).map Place.remark = remarks parts := by
  induction parts generalizing front with
  | nil => rfl
  | cons part rest ih =>
      rw [placesFrom, List.map_append, ih]
      cases part <;> rfl

/- No place has fewer elements in front than all of them have. -/
theorem le_index_of_mem
    {front parts : List (Part α)}
    {place : Place α}
    (hPlace : place ∈ placesFrom front parts) :
    (elements front).length ≤ place.index := by
  rcases mem_placesFrom_iff.mp hPlace with ⟨between, hFront, -⟩
  rw [Place.index, hFront, elements_append, List.length_append]
  exact Nat.le_add_right _ _

------------------------------------------------------------
-- Comments By Their Places
------------------------------------------------------------

/- The comments at the places for which a condition holds. -/
def remarksAt
    (holds : Place α → Bool)
    (front parts : List (Part α)) : List Remark :=
  ((placesFrom front parts).filter holds).map Place.remark

theorem remarksAt_comment
    (holds : Place α → Bool)
    (front : List (Part α))
    (remark : Remark)
    (rest : List (Part α)) :
    remarksAt holds front (.comment remark :: rest) =
      (if holds ⟨front, remark, rest⟩ then [remark] else []) ++
        remarksAt holds (front ++ [Part.comment remark]) rest := by
  simp only [remarksAt, placesFrom, remark?, Option.map_some,
    Option.toList_some, List.singleton_append, List.filter_cons]
  split <;> rfl

theorem remarksAt_comma
    (holds : Place α → Bool)
    (front rest : List (Part α)) :
    remarksAt holds front (.comma :: rest) =
      remarksAt holds (front ++ [Part.comma]) rest :=
  rfl

theorem remarksAt_element
    (holds : Place α → Bool)
    (front : List (Part α))
    (item : α)
    (rest : List (Part α)) :
    remarksAt holds front (.element item :: rest) =
      remarksAt holds (front ++ [Part.element item]) rest :=
  rfl

/- No comment belongs to an element that has another one behind it. -/
theorem remarksAt_leads_of_lt
    {number : Nat}
    {front : List (Part α)}
    (hNumber : number < (elements front).length)
    (parts : List (Part α)) :
    remarksAt (Place.leads number) front parts = [] := by
  rw [remarksAt, List.map_eq_nil_iff, List.filter_eq_nil_iff]
  intro place hPlace
  have hIndex := le_index_of_mem hPlace
  simp only [Place.leads, Bool.and_eq_true, beq_iff_eq]
  omega

theorem remarksAt_trails_of_lt
    {number : Nat}
    {front : List (Part α)}
    (hNumber : number + 1 < (elements front).length)
    (parts : List (Part α)) :
    remarksAt (Place.trails number) front parts = [] := by
  rw [remarksAt, List.map_eq_nil_iff, List.filter_eq_nil_iff]
  intro place hPlace
  have hIndex := le_index_of_mem hPlace
  simp only [Place.trails, Bool.and_eq_true, beq_iff_eq]
  omega

end Part

------------------------------------------------------------
-- Elements With Their Comments
------------------------------------------------------------

namespace Attached

open SchemaLang.Part

variable {α : Type}

/-
  The elements of a list with the comments that their places give
  them, if some parts stand in front and some comments wait for the
  first element.
-/
def placed
    (front : List (Part α))
    (waiting : List Remark)
    (parts : List (Part α)) : List (Attached α) :=
  (elements parts).mapIdx fun number item =>
    { item := item
      leading :=
        (if number = 0 then waiting else []) ++
          remarksAt (Place.leads ((elements front).length + number)) front
            parts
      trailing :=
        remarksAt (Place.trails ((elements front).length + number)) front
          parts }

theorem placed_of_elements_nil
    {parts : List (Part α)}
    (hNone : elements parts = [])
    (front : List (Part α))
    (waiting : List Remark) :
    placed front waiting parts = [] := by
  rw [placed, hNone, List.mapIdx_nil]

/- A comment that does not trail waits for the next element. -/
theorem placed_comment
    (front : List (Part α))
    (waiting : List Remark)
    (remark : Remark)
    (rest : List (Part α)) :
    placed front waiting (.comment remark :: rest) =
      placed (front ++ [Part.comment remark])
        (waiting ++
          if Place.isTrailing ⟨front, remark, rest⟩ then [] else [remark])
        rest := by
  unfold placed
  rw [elements_comment, elements_append_comment]
  congr 1
  funext number item
  have hLeads :
      Place.leads ((elements front).length + number)
          ⟨front, remark, rest⟩ =
        (!Place.isTrailing ⟨front, remark, rest⟩ && number == 0) := by
    rw [Place.leads, Bool.eq_iff_iff]
    simp [Place.index]
  have hTrails :
      Place.trails ((elements front).length + number)
          ⟨front, remark, rest⟩ = false := by
    simp only [Place.trails, Place.index, Bool.and_eq_false_iff,
      beq_eq_false_iff_ne]
    right
    omega
  rw [remarksAt_comment, remarksAt_comment, hLeads, hTrails]
  by_cases hFirst : number = 0
  · by_cases hSide : Place.isTrailing ⟨front, remark, rest⟩ = true
    · simp [hFirst, hSide]
    · simp [hFirst, hSide]
  · simp [hFirst]

theorem placed_comma
    (front : List (Part α))
    (waiting : List Remark)
    (rest : List (Part α)) :
    placed front waiting (.comma :: rest) =
      placed (front ++ [Part.comma]) waiting rest := by
  unfold placed
  rw [elements_comma, elements_append_comma]
  rfl

/- An element takes the comments that wait. -/
theorem placed_element
    (front : List (Part α))
    (waiting : List Remark)
    (item : α)
    (rest : List (Part α)) :
    placed front waiting (.element item :: rest) =
      ⟨item, waiting,
          remarksAt (Place.trails (elements front).length)
            (front ++ [Part.element item]) rest⟩ ::
        placed (front ++ [Part.element item]) [] rest := by
  have hLength := length_elements_append_element front item
  have hLeads :
      remarksAt (Place.leads (elements front).length)
        (front ++ [Part.element item]) rest = [] :=
    remarksAt_leads_of_lt (by omega) rest
  unfold placed
  rw [elements_element, List.mapIdx_cons, hLength]
  congr 1
  · simp only [if_true, Nat.add_zero, remarksAt_element, hLeads,
      List.append_nil]
  · congr 1
    funext number other
    simp only [Nat.add_eq_zero_iff, Nat.one_ne_zero, and_false, if_false,
      remarksAt_element, List.nil_append, ite_self, Nat.add_right_comm,
      Nat.add_assoc]

/-
  One part after the other is taken as its place says. The comments
  that wait are those behind a comma.
-/
theorem following_eq
    {current : Attached α}
    {divided : Bool}
    {waiting : List Remark}
    {front : List (Part α)}
    {number : Nat}
    (hNumber : (elements front).length = number + 1)
    (hDivided : endsDivided front = divided)
    (hWaiting : divided = false → waiting = [])
    (parts : List (Part α)) :
    following current divided waiting parts =
      { current with
        trailing :=
          current.trailing ++
            ((if elements parts = [] then waiting else []) ++
              remarksAt (Place.trails number) front parts) } ::
        placed front waiting parts := by
  induction parts generalizing current divided waiting front number with
  | nil => simp [following, placed, elements, remarksAt, placesFrom]
  | cons part rest ih =>
      cases part with
      | comment remark =>
          have hFront : elements front ≠ [] := by
            intro hNone
            simp [hNone] at hNumber
          have hSide :
              Place.isTrailing ⟨front, remark, rest⟩ =
                (!divided || (elements rest).isEmpty) := by
            simp [Place.isTrailing, hDivided, hFront]
          have hTrails :
              Place.trails number ⟨front, remark, rest⟩ =
                (!divided || (elements rest).isEmpty) := by
            simp [Place.trails, Place.index, hNumber, hSide]
          have hNumber' :
              (elements (front ++ [Part.comment remark])).length =
                number + 1 := by
            rw [elements_append_comment, hNumber]
          have hDivided' :
              endsDivided (front ++ [Part.comment remark]) = divided := by
            rw [endsDivided_comment, hDivided]
          rw [placed_comment, remarksAt_comment, hTrails, hSide,
            elements_comment]
          cases divided with
          | true =>
              rw [following, if_pos rfl,
                ih hNumber' hDivided' (fun hNot => by cases hNot)]
              by_cases hLast : elements rest = []
              · simp [hLast, placed_of_elements_nil]
              · simp [hLast]
          | false =>
              rw [following, if_neg Bool.false_ne_true,
                ih hNumber' hDivided' hWaiting, hWaiting rfl]
              simp
      | comma =>
          rw [following, placed_comma, remarksAt_comma, elements_comma]
          refine ih ?_ (endsDivided_comma front) (fun hNot => by cases hNot)
          rw [elements_append_comma, hNumber]
      | element item =>
          have hLength := length_elements_append_element front item
          have hTrails :
              remarksAt (Place.trails number) (front ++ [Part.element item])
                rest = [] :=
            remarksAt_trails_of_lt (by omega) rest
          rw [following,
            ih hLength (endsDivided_element front item) (fun _ => rfl),
            placed_element, remarksAt_element, elements_element, hTrails]
          simp

/- So it is in front of the first element. -/
theorem opening_eq
    {waiting : List Remark}
    {front : List (Part α)}
    (hFront : elements front = [])
    (parts : List (Part α)) :
    opening waiting parts = placed front waiting parts := by
  induction parts generalizing waiting front with
  | nil => rfl
  | cons part rest ih =>
      cases part with
      | comment remark =>
          have hSide :
              Place.isTrailing ⟨front, remark, rest⟩ = false := by
            simp [Place.isTrailing, hFront]
          rw [opening, placed_comment, hSide]
          refine ih ?_
          rw [elements_append_comment, hFront]
      | comma =>
          rw [opening, placed_comma]
          refine ih ?_
          rw [elements_append_comma, hFront]
      | element item =>
          have hLength := length_elements_append_element front item
          rw [opening,
            following_eq hLength (endsDivided_element front item)
              (fun _ => rfl),
            placed_element]
          simp

/- Every element has the comments that their places give it. -/
theorem ofParts_eq
    (parts : List (Part α)) :
    ofParts parts =
      (elements parts).mapIdx fun number item =>
        { item := item
          leading :=
            ((places parts).filter (Place.leads number)).map Place.remark
          trailing :=
            ((places parts).filter (Place.trails number)).map
              Place.remark } := by
  have hNone : elements ([] : List (Part α)) = [] := rfl
  rw [ofParts, opening_eq hNone]
  simp [placed, hNone, remarksAt, places]

------------------------------------------------------------
-- All Comments
------------------------------------------------------------

/- The comments of an element, as they are written. -/
def remarks
    (attached : Attached α) : List Remark :=
  attached.leading ++ attached.trailing

theorem flatMap_following
    (current : Attached α)
    {divided : Bool}
    {waiting : List Remark}
    (hWaiting : divided = false → waiting = [])
    (parts : List (Part α)) :
    (following current divided waiting parts).flatMap remarks =
      current.remarks ++ (waiting ++ Part.remarks parts) := by
  induction parts generalizing current divided waiting with
  | nil => simp [following, remarks, remarks_nil]
  | cons part rest ih =>
      cases part with
      | comment remark =>
          cases divided with
          | true =>
              rw [following, if_pos rfl, ih _ (fun hNot => by cases hNot),
                remarks_comment]
              simp
          | false =>
              rw [following, if_neg Bool.false_ne_true, ih _ hWaiting,
                hWaiting rfl, remarks_comment]
              simp [remarks]
      | comma =>
          rw [following, ih _ (fun hNot => by cases hNot), remarks_comma]
      | element item =>
          rw [following, List.flatMap_cons, ih _ (fun _ => rfl),
            remarks_element]
          simp [remarks]

theorem flatMap_opening
    (waiting : List Remark)
    {parts : List (Part α)}
    (hSome : elements parts ≠ []) :
    (opening waiting parts).flatMap remarks =
      waiting ++ Part.remarks parts := by
  induction parts generalizing waiting with
  | nil => cases hSome rfl
  | cons part rest ih =>
      cases part with
      | comment remark =>
          rw [opening, ih _ hSome, remarks_comment]
          simp
      | comma =>
          rw [opening, ih _ hSome, remarks_comma]
      | element item =>
          rw [opening, flatMap_following _ (fun _ => rfl),
            remarks_element]
          simp [remarks]

/-
  The elements of a list are kept in order, their comments in turn are
  all comments of the list, and each of these is with the element and
  on the side that its place tells.
-/
theorem comments_partitioned
    {parts : List (Part α)}
    (hSome : elements parts ≠ []) :
    (ofParts parts).map item = elements parts ∧
      (ofParts parts).flatMap (fun attached =>
          attached.leading ++ attached.trailing) =
        Part.remarks parts ∧
      (∀ place, place ∈ places parts ↔
        parts = place.front ++ .comment place.remark :: place.back) ∧
      (places parts).map Place.remark = Part.remarks parts ∧
      ∀ number attached, (ofParts parts)[number]? = some attached →
        attached.leading =
            ((places parts).filter (Place.leads number)).map
              Place.remark ∧
          attached.trailing =
            ((places parts).filter (Place.trails number)).map
              Place.remark := by
  refine ⟨?_, flatMap_opening [] hSome, fun place => mem_places_iff,
    map_remark_placesFrom [] parts, ?_⟩
  · apply List.ext_getElem?
    intro number
    rw [ofParts_eq, List.getElem?_map, List.getElem?_mapIdx,
      Option.map_map]
    exact Option.map_id'
  · intro number attached hAttached
    rw [ofParts_eq, List.getElem?_mapIdx, Option.map_eq_some_iff]
      at hAttached
    rcases hAttached with ⟨item, -, rfl⟩
    exact ⟨rfl, rfl⟩

/- A comment with some text. -/
def remarkOf
    (text : String) : Remark :=
  ⟨text, ⟨{}, {}⟩⟩

/- Two elements, two commas in a row, and a comment written twice. -/
def mixedParts : List (Part Nat) :=
  [.comment (remarkOf "a"), .element 1, .comment (remarkOf "b"), .comma,
    .comment (remarkOf "c"), .element 2, .comment (remarkOf "b"), .comma,
    .comma, .comment (remarkOf "d")]

theorem comments_partitioned_mixedParts :
    elements mixedParts ≠ [] ∧
      ofParts mixedParts =
        [⟨1, [remarkOf "a"], [remarkOf "b"]⟩,
          ⟨2, [remarkOf "c"], [remarkOf "b", remarkOf "d"]⟩] ∧
      (ofParts mixedParts).flatMap (fun attached =>
          attached.leading ++ attached.trailing) =
        [remarkOf "a", remarkOf "b", remarkOf "c", remarkOf "b",
          remarkOf "d"] ∧
      [remarkOf "b", remarkOf "d"] =
        ((places mixedParts).filter (Place.trails 1)).map
          Place.remark := by
  have hSome : elements mixedParts ≠ [] := by decide
  have hWhole := comments_partitioned hSome
  exact ⟨hSome, rfl, hWhole.2.1, (hWhole.2.2.2.2 1 _ rfl).2⟩

end Attached

end SchemaLang
