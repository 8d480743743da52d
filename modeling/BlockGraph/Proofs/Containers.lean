import BlockGraph.Proofs.Equalities
import BlockGraph.Proofs.Inputs
import BlockGraph.Proofs.Remainders
/-!
Containers: what the blocks for arrays and objects write is what they read. An index is a position when it is a natural
number, be it an integer or a double; a key is the text of an input, and null stands for its default.
-/
namespace BlockGraph

/-! ### Positions -/

/-- Whether a number is a natural number, as an integer or as a double. -/
def Number.IsPosition (n : Number) (k : ℕ) : Prop := n.eq (.int k) = true

namespace Double

variable {x : Double} {n : ℤ}

/-- The double nearest to an integer is integral, however far that integer is rounded. -/
theorem isIntegral_ofInt (near : ofInt? n = some x) : x.isIntegral = true := by
  have scaled : (n * unitsPerOne).natAbs = n.natAbs * unitsPerOne := by rw [Int.natAbs_mul, Int.natAbs_natCast]
  obtain ⟨e, one, -⟩ := unitsPerOne_eq
  have whole : unitsOfCode (nearestCode (n * unitsPerOne).natAbs 1) = roundBits n.natAbs * unitsPerOne := by
    rw [unitsOfCode_nearestCode, scaled, one, roundBits_mul_two_pow]
  rw [ofInt?, ofUnits, ofCode] at near
  split at near
  · cases near
    have divides : (unitsPerOne : ℤ) ∣ (roundBits n.natAbs * unitsPerOne : ℕ) :=
      Int.natCast_dvd_natCast.mpr (Nat.dvd_mul_left _ _)
    simp only [isIntegral, units?, whole]
    split
    · exact beq_iff_eq.mpr (Int.emod_eq_zero_of_dvd (Int.dvd_neg.mpr divides))
    · exact beq_iff_eq.mpr (Int.emod_eq_zero_of_dvd divides)
  · cases near

end Double

namespace Number

variable {n : Number} {k : ℕ}

theorem isPosition_iff : n.IsPosition k ↔ n.worth? = some (.units (k * Double.unitsPerOne)) := by
  rw [IsPosition, eq_iff]
  exact ⟨fun ⟨_, left, right⟩ => left.trans right.symm, fun worth => ⟨_, worth, rfl⟩⟩

theorem isPosition_int {n : ℤ} : IsPosition (.int n) k ↔ n = k := by
  have one : (Double.unitsPerOne : ℤ) ≠ 0 := Int.natCast_ne_zero.mpr Double.unitsPerOne_pos.ne'
  rw [isPosition_iff, worth?, Option.some_inj, Worth.units.injEq, Int.mul_eq_mul_right_iff one]

/-- A double is a natural number when its units are as many ones. -/
theorem isPosition_float {x : Double} : IsPosition (.float x) k ↔ x.units? = some (k * Double.unitsPerOne : ℤ) := by
  rw [isPosition_iff]
  cases x with
  | nan | infinite => exact ⟨nofun, nofun⟩
  | finite s c inRange => simp only [worth?, Double.units?, Option.map_some, Option.some_inj, Worth.units.injEq]

theorem isNegative_float {x : Double} {u : ℤ} (units : x.units? = some u) :
    isNegative (.float x) = decide (u < 0) := by
  cases x with
  | nan | infinite => cases units
  | finite s c inRange =>
      rw [isNegative, lt, compare?, Double.compareInt?, units, Bool.eq_iff_iff, beq_iff_eq, decide_eq_true_eq]
      simp only [Option.map_some, Option.some_inj, Int.compare_swap, Int.compare_eq_lt, Int.zero_mul]

/-- A natural number is not below zero. -/
theorem IsPosition.le (is : n.IsPosition k) : Number.le (.int 0) n = true := by
  cases n with
  | int n =>
      obtain rfl := isPosition_int.mp is
      rw [le_int, decide_eq_true_iff]
      exact Int.natCast_nonneg k
  | float x =>
      have units := isPosition_float.mp is
      have least : (0 : ℤ) ≤ k * Double.unitsPerOne := by positivity
      cases x with
      | nan | infinite => cases units
      | finite s c inRange =>
          rw [Number.le, compare?, Double.compareInt?, units, Option.map_some, Int.zero_mul, Bool.or_eq_true,
            beq_iff_eq, beq_iff_eq, Option.some_inj, Option.some_inj, Int.compare_eq_lt, Int.compare_eq_eq]
          exact lt_or_eq_of_le least

end Number

namespace Standard
open Plan

variable {n : Number} {k : ℕ}

theorem position?_double {x : Double} (known : n.toDouble = .ok x) : position? n = .ok (
    if !x.isIntegral || n.isNegative then none
    else match n with
      | .int n => some n.toNat
      | .float x => x.truncate?.map Int.toNat) := by
  cases n with
  | int n =>
      unfold position?
      rw [known]
      show (if _ then _ else _) = _
      split <;> rfl
  | float x' =>
      cases known
      show (if _ then _ else _) = _
      split <;> rfl

/-- The position that a number stands for is the natural number that it is. -/
theorem position?_eq {r : Option ℕ} (found : position? n = .ok r) : r = some k ↔ n.IsPosition k := by
  cases n with
  | int n =>
      cases near : Double.ofInt? n with
      | none =>
          have fails : Number.toDouble (.int n) = .error .integerTooLarge := by
            rw [Number.toDouble, near, Option.elim_none]
          unfold position? at found
          rw [fails] at found
          cases found
      | some x =>
          rw [position?_double (by rw [Number.toDouble, near, Option.elim_some])] at found
          cases found
          have sign : Number.isNegative (.int n) = decide (n < 0) := Number.lt_int n 0
          rw [Number.isPosition_int, Double.isIntegral_ofInt near, Bool.not_true, Bool.false_or, sign]
          by_cases negative : n < 0
          · simp [negative]
            omega
          · simp [negative]
            omega
  | float x =>
      rw [position?_double rfl] at found
      cases found
      rw [Number.isPosition_float]
      cases units : x.units? with
      | none =>
          rw [Double.isIntegral, units]
          constructor <;> rintro ⟨⟩
      | some u =>
          have one : (0 : ℤ) < Double.unitsPerOne := by exact_mod_cast Double.unitsPerOne_pos
          rw [Double.isIntegral, units, Number.isNegative_float units]
          simp only [Double.truncate?, units]
          generalize (Double.unitsPerOne : ℤ) = ones at one
          by_cases whole : ones ∣ u
          · obtain ⟨q, rfl⟩ := whole
            have same : ones * q = k * ones ↔ q = k := by rw [mul_comm, Int.mul_eq_mul_right_iff one.ne']
            simp [one.ne', mul_nonneg_iff_of_pos_left one, same]
            omega
          · have other : u ≠ k * ones := fun same => whole ⟨k, same.trans (mul_comm _ _)⟩
            simp [mt Int.dvd_of_emod_eq_zero whole, other]

/-- An integer in the range of doubles is a position unless it is negative. -/
theorem position?_int {n : ℤ} (small : n.natAbs < 2 ^ 1023) :
    position? (.int n) = .ok (if n < 0 then none else some n.toNat) := by
  obtain ⟨code, inRange, near, -⟩ := Double.ofInt?_eq small
  have sign : Number.isNegative (.int n) = decide (n < 0) := Number.lt_int n 0
  rw [position?_double (by rw [Number.toDouble, near, Option.elim_some]), Double.isIntegral_ofInt near, sign]
  simp only [Bool.not_true, Bool.false_or, decide_eq_true_eq]

/-! ### Items -/

variable {items r : List Value} {v w : Value}

/-- What is read at a position is the item there, or null, and nothing is read at what is no position. -/
theorem itemAt_eq (read : itemAt (.list items) n = .ok w) :
    (∀ k, n.IsPosition k → w = items.getD k .null) ∧ ((∀ k, ¬n.IsPosition k) → w = .null) := by
  unfold itemAt at read
  cases found : position? n with
  | error f =>
      rw [found] at read
      cases read
  | ok place =>
      rw [found] at read
      cases place with
      | none =>
          cases read
          exact ⟨fun k is => (nomatch (position?_eq found).mpr is), fun _ => rfl⟩
      | some k =>
          cases read
          have is := (position?_eq found).mp rfl
          refine ⟨fun k' is' => ?_, fun none => absurd is (none k)⟩
          cases (position?_eq found).mpr is'
          rfl

theorem getD_padded (items : List Value) (v : Value) (k j : ℕ) :
    ((items ++ List.replicate (k + 1 - items.length) Value.null).set k v).getD j .null =
      if j = k then v else items.getD j .null := by
  have inside : k < (items ++ List.replicate (k + 1 - items.length) Value.null).length := by
    rw [List.length_append, List.length_replicate]
    omega
  split
  · rename_i same
    rw [same, List.getD_eq_getElem?_getD, List.getElem?_set_self inside, Option.getD_some]
  · rename_i other
    rw [List.getD_eq_getElem?_getD, List.getElem?_set_ne (Ne.symm other), List.getD_eq_getElem?_getD,
      List.getElem?_append]
    split
    · rfl
    · rename_i beyond
      rw [List.getElem?_replicate, List.getElem?_eq_none (not_lt.mp beyond)]
      split <;> rfl

/-- What is written at a position is found there, and other positions keep what they had; what is no position changes
nothing. -/
theorem withItem_eq (made : withItem (.list items) n v = .ok r) :
    (∀ k, n.IsPosition k → ∀ j, r.getD j .null = if j = k then v else items.getD j .null) ∧
      ((∀ k, ¬n.IsPosition k) → r = items) := by
  unfold withItem at made
  cases least : Number.le (.int 0) n with
  | false =>
      rw [least] at made
      cases made
      exact ⟨fun k is => (nomatch least.symm.trans is.le), fun _ => rfl⟩
  | true =>
      rw [least] at made
      cases found : position? n with
      | error f =>
          rw [found] at made
          cases made
      | ok place =>
          rw [found] at made
          cases place with
          | none =>
              cases made
              exact ⟨fun k is => (nomatch (position?_eq found).mpr is), fun _ => rfl⟩
          | some k =>
              have is := (position?_eq found).mp rfl
              have padded : r = (items ++ List.replicate (k + 1 - items.length) Value.null).set k v := by
                change (if _ then _ else if _ then _ else if _ then _ else _) = _ at made
                rw [if_neg (by decide)] at made
                split at made
                · cases made
                · split at made
                  · cases made
                  · exact (Except.ok.inj made).symm
              refine ⟨fun k' is' j => ?_, fun none => absurd is (none k)⟩
              cases (position?_eq found).mpr is'
              rw [padded, getD_padded]

/-! ### Entries -/

/-- The key that an element is given. -/
def keyOf (c : Context) : Value :=
  if (Entries.field c.inputs "key").isNull then .text "property" else Entries.field c.inputs "key"

/-- What is written under a key is found there, and other keys keep what they had. -/
theorem entryAt_withEntry (entries : Entries) (key key' : String) (v : Value) :
    entryAt (.mapping (withEntry (.mapping entries) key v)) key' =
      if key' = key then v else entryAt (.mapping entries) key' := by
  have found : Entries.field? (Entries.writeField entries key v) key' =
      if Value.isSameItem (.text key) (.text key') then some v else Entries.field? entries key' := Entries.field?_write
  simp only [Value.isSameItem_text, Value.text.injEq] at found
  simp only [entryAt, withEntry, Entries.field, found, @eq_comm _ key']
  split <;> rfl

/-! ### What the blocks hand over -/

/-- The index that an element is given. -/
def indexOf (c : Context) : Number := (Entries.field c.inputs "index").toNumber (.int 0)

section

variable {sight : Sight}

theorem arrayGet_hands
    (read : itemAt (Entries.field sight.context.inputs "array") (indexOf sight.context) = .ok w) :
    arrayGet.plan.Hands sight ((Value.numberText (indexOf sight.context)).isOk = true ∧ w.toJson.isOk = true ∧
      w.Emittable) [⟨"value", w⟩] := by
  refine gives_number _ _ (gives_input _ (hands_of (fun w' read' => ?_) fun _ => ?_))
  · cases read.symm.trans read'
    refine gives_store rfl _ (hands_of (fun _ _ => hands_of (fun _ _ => gives_say _ (hands_emitted rfl ?_)) ?_) ?_)
    · exact fun fine => fine.2.2
    · exact fun fine => fine.2.1
    · exact fun fine => fine.1
  · show (itemAt _ (indexOf sight.context)).isOk = true
    rw [read]
    rfl

theorem arraySet_hands (made : withItem (Entries.field sight.context.inputs "array") (indexOf sight.context)
      (Entries.field sight.context.inputs "value") = .ok r) :
    arraySet.plan.Hands sight ((Value.numberText (indexOf sight.context)).isOk = true ∧
      (Entries.field sight.context.inputs "value").toJson.isOk = true ∧ (Value.list r).Emittable)
      [⟨"result", .list r⟩] := by
  refine gives_number _ _ (gives_input _ (gives_input _ (hands_of (fun r' made' => ?_) fun _ => ?_)))
  · cases made.symm.trans made'
    refine gives_store rfl _ (hands_of (fun _ _ => hands_of (fun _ _ => gives_say _ (hands_emitted rfl ?_)) ?_) ?_)
    · exact fun fine => fine.2.2
    · exact fun fine => fine.2.1
    · exact fun fine => fine.1
  · show (withItem _ (indexOf sight.context) _).isOk = true
    rw [made]
    rfl

theorem arrayPush_hands (given : Entries.field sight.context.inputs "array" = .list items) :
    arrayPush.plan.Hands sight ((Entries.field sight.context.inputs "item").toJson.isOk = true ∧
      (Value.list (items ++ [Entries.field sight.context.inputs "item"])).Emittable)
      [⟨"result", .list (items ++ [Entries.field sight.context.inputs "item"])⟩] := by
  refine gives_input _ (gives_input _ ?_)
  rw [given]
  refine gives_store rfl _ (hands_of (fun _ _ => gives_say _ (hands_emitted rfl ?_)) ?_)
  · exact fun fine => fine.2
  · exact fun fine => fine.1

theorem arrayPop_hands (given : Entries.field sight.context.inputs "array" = .list (items ++ [v])) :
    arrayPop.plan.Hands sight (v.toJson.isOk = true ∧ (Value.list items).Emittable ∧ v.Emittable)
      [⟨"remaining", .list items⟩, ⟨"item", v⟩] := by
  have last : popped? (Entries.field sight.context.inputs "array") = some (items, v) := by
    rw [given, popped?, List.getLast?_concat, Option.map_some, List.dropLast_concat]
  refine gives_input _ ?_
  rw [last]
  refine gives_store rfl _ (gives_store rfl _ (hands_of (fun _ _ => gives_say _ ?_) fun fine => fine.1))
  exact hands_emit rfl (hands_emitted rfl fun fine => fine.2.2) fun fine => fine.2.1

theorem objectGet_hands {key : String} (written : (keyOf sight.context).toText = .ok key) :
    objectGet.plan.Hands sight ((entryAt (Entries.field sight.context.inputs "object") key).toJson.isOk = true ∧
      (entryAt (Entries.field sight.context.inputs "object") key).Emittable)
      [⟨"value", entryAt (Entries.field sight.context.inputs "object") key⟩] := by
  show Gives (of (keyOf sight.context).toText >>= _) _ _
  refine hands_of (fun key' written' => ?_) fun _ => by rw [written]; rfl
  cases written.symm.trans written'
  refine gives_input _ (gives_store rfl _ (hands_of (fun _ _ => gives_say _ (hands_emitted rfl ?_)) ?_))
  · exact fun fine => fine.2
  · exact fun fine => fine.1

theorem objectSet_hands {key : String} (written : (keyOf sight.context).toText = .ok key) :
    objectSet.plan.Hands sight ((Entries.field sight.context.inputs "value").toJson.isOk = true)
      [⟨"result", .mapping (withEntry (Entries.field sight.context.inputs "object") key
        (Entries.field sight.context.inputs "value"))⟩] := by
  show Gives (of (keyOf sight.context).toText >>= _) _ _
  refine hands_of (fun key' written' => ?_) fun _ => by rw [written]; rfl
  cases written.symm.trans written'
  exact gives_input _ (gives_input _ (gives_store rfl _ (hands_of (fun _ _ => gives_say _
    (hands_emitted rfl fun _ => trivial)) id)))

/-- A plan that begins with a fault comes to nothing else. -/
theorem gives_fault {α : Type} {r : Except Fault α} {f : Fault} {g : α → Plan Unit} (fails : r = .error f) :
    (of r >>= g).Gives sight fun es e => es = [] ∧ e = .fault (Process.leaving .stream f) :=
  gives_of (fun a goes => nomatch goes.symm.trans fails) fun f' fails' => by
    cases fails.symm.trans fails'
    exact ⟨rfl, rfl⟩

end

variable {c : Context} {sessions : ℕ → Session} {es : List Emission}

theorem arrayGet_emits (emits : (arrayGet.invoked c).Emits sessions es .normal) :
    ∃ w, itemAt (Entries.field c.inputs "array") (indexOf c) = .ok w ∧ es = [⟨"value", w⟩] := by
  cases read : itemAt (Entries.field c.inputs "array") (indexOf c) with
  | error f =>
      have fault := StandardBlock.invoked_only rfl (gives_number _ _ (gives_input _ (gives_fault read))) emits
      cases fault.2
  | ok w => exact ⟨w, rfl, (StandardBlock.invoked_hands rfl (arrayGet_hands read)).2 es emits⟩

theorem arraySet_emits (emits : (arraySet.invoked c).Emits sessions es .normal) :
    ∃ r, withItem (Entries.field c.inputs "array") (indexOf c) (Entries.field c.inputs "value") = .ok r ∧
      es = [⟨"result", .list r⟩] := by
  cases made : withItem (Entries.field c.inputs "array") (indexOf c) (Entries.field c.inputs "value") with
  | error f =>
      have fault := StandardBlock.invoked_only rfl (gives_number _ _ (gives_input _ (gives_input _ (gives_fault made))))
        emits
      cases fault.2
  | ok r => exact ⟨r, rfl, (StandardBlock.invoked_hands rfl (arraySet_hands made)).2 es emits⟩

theorem objectGet_emits (emits : (objectGet.invoked c).Emits sessions es .normal) : ∃ key,
    (keyOf c).toText = .ok key ∧ es = [⟨"value", entryAt (Entries.field c.inputs "object") key⟩] := by
  cases written : (keyOf c).toText with
  | error f =>
      have fault := StandardBlock.invoked_only rfl (gives_fault written) emits
      cases fault.2
  | ok key => exact ⟨key, rfl, (StandardBlock.invoked_hands rfl (objectGet_hands written)).2 es emits⟩

theorem objectSet_emits (emits : (objectSet.invoked c).Emits sessions es .normal) : ∃ key,
    (keyOf c).toText = .ok key ∧ es = [⟨"result", .mapping (withEntry (Entries.field c.inputs "object") key
      (Entries.field c.inputs "value"))⟩] := by
  cases written : (keyOf c).toText with
  | error f =>
      have fault := StandardBlock.invoked_only rfl (gives_fault written) emits
      cases fault.2
  | ok key => exact ⟨key, rfl, (StandardBlock.invoked_hands rfl (objectSet_hands written)).2 es emits⟩

/-- What the blocks for arrays and objects write is what they read, when none of them fails. -/
theorem containers_lawful :
    (∀ c sessions es items, Entries.field c.inputs "array" = .list items →
      (arraySet.invoked c).Emits sessions es .normal → ∃ r, es = [⟨"result", .list r⟩] ∧
        ((∀ k, ¬(indexOf c).IsPosition k) → r = items) ∧
        ∀ c' sessions' es', Entries.field c'.inputs "array" = .list r →
          (arrayGet.invoked c').Emits sessions' es' .normal → ∃ w, es' = [⟨"value", w⟩] ∧
            (∀ k, (indexOf c).IsPosition k → (indexOf c').IsPosition k → w = Entries.field c.inputs "value") ∧
            (∀ k j, (indexOf c).IsPosition k → (indexOf c').IsPosition j → j ≠ k → w = items.getD j .null) ∧
            ((∀ j, ¬(indexOf c').IsPosition j) → w = .null)) ∧
    (∀ c sessions es items, Entries.field c.inputs "array" = .list items →
      (arrayPush.invoked c).Emits sessions es .normal → ∃ r, es = [⟨"result", .list r⟩] ∧
        ∀ c' sessions' es', Entries.field c'.inputs "array" = .list r →
          (arrayPop.invoked c').Emits sessions' es' .normal →
            es' = [⟨"remaining", .list items⟩, ⟨"item", Entries.field c.inputs "item"⟩]) ∧
    (∀ c sessions es entries, Entries.field c.inputs "object" = .mapping entries →
      (objectSet.invoked c).Emits sessions es .normal → ∃ r, es = [⟨"result", .mapping r⟩] ∧
        ∀ c' sessions' es', Entries.field c'.inputs "object" = .mapping r →
          (objectGet.invoked c').Emits sessions' es' .normal →
            ((keyOf c').toText = (keyOf c).toText → es' = [⟨"value", Entries.field c.inputs "value"⟩]) ∧
            ((keyOf c').toText ≠ (keyOf c).toText → ∀ c'' sessions'' es'',
              Entries.field c''.inputs "object" = .mapping entries → keyOf c'' = keyOf c' →
              (objectGet.invoked c'').Emits sessions'' es'' .normal → es' = es'')) := by
  refine ⟨fun c sessions es items given emits => ?_, fun c sessions es items given emits => ?_,
    fun c sessions es entries given emits => ?_⟩
  · obtain ⟨r, made, rfl⟩ := arraySet_emits emits
    rw [given] at made
    obtain ⟨written, kept⟩ := withItem_eq made
    refine ⟨r, rfl, kept, fun c' sessions' es' given' emits' => ?_⟩
    obtain ⟨w, read, rfl⟩ := arrayGet_emits emits'
    rw [given'] at read
    obtain ⟨found, none⟩ := itemAt_eq read
    refine ⟨w, rfl, fun k is is' => ?_, fun k j is is' other => ?_, none⟩
    · rw [found k is', written k is, if_pos rfl]
    · rw [found j is', written k is, if_neg other]
  · have pushed := (StandardBlock.invoked_hands rfl (arrayPush_hands given)).2 es emits
    refine ⟨_, pushed, fun c' sessions' es' given' emits' => ?_⟩
    exact (StandardBlock.invoked_hands rfl (arrayPop_hands given')).2 es' emits'
  · obtain ⟨key, written, rfl⟩ := objectSet_emits emits
    refine ⟨_, rfl, fun c' sessions' es' given' emits' => ?_⟩
    obtain ⟨key', written', rfl⟩ := objectGet_emits emits'
    rw [given', given, written, written', entryAt_withEntry, ne_eq, Except.ok.injEq]
    refine ⟨fun same => by rw [if_pos same], fun other c'' sessions'' es'' given'' same emits'' => ?_⟩
    obtain ⟨key'', written'', rfl⟩ := objectGet_emits emits''
    rw [same, written', Except.ok.injEq] at written''
    rw [if_neg other, given'', written'']

/-- An element with some inputs. -/
def receiving (inputs : List (String × Value)) : Context :=
  ⟨"A", "data", inputs.map fun (key, v) => (.text key, v), [], [], 0⟩

/-- An array block and an object block that write, an array that is lengthened at its end. -/
def writer : Context := receiving [("array", .list [.int 7]), ("index", .text "2"), ("value", .bool true),
  ("item", .null), ("object", .mapping []), ("key", .int 1)]

/-- Blocks that read what was written. -/
def reader (items : List Value) (entries : Entries) : Context :=
  receiving [("array", .list items), ("index", .int 2), ("object", .mapping entries), ("key", .text "1")]

theorem containers_lawful_small : ∀ sessions,
    (∃ r w, (arraySet.invoked writer).Emits sessions [⟨"result", .list r⟩] .normal ∧
      (arrayGet.invoked (reader r [])).Emits sessions [⟨"value", w⟩] .normal ∧ w = .bool true) ∧
    (∃ r, (arrayPush.invoked writer).Emits sessions [⟨"result", .list r⟩] .normal ∧ ∃ es,
      (arrayPop.invoked (reader r [])).Emits sessions es .normal ∧
      es = [⟨"remaining", .list [.int 7]⟩, ⟨"item", .null⟩]) ∧
    (∃ r, (objectSet.invoked writer).Emits sessions [⟨"result", .mapping r⟩] .normal ∧ ∃ es,
      (objectGet.invoked (reader [] r)).Emits sessions es .normal ∧ es = [⟨"value", .bool true⟩]) := by
  intro sessions
  obtain ⟨arrays, ends, objects⟩ := containers_lawful
  have two : (2 : ℤ).natAbs < 2 ^ 1023 := by decide +kernel
  have place : position? (.int 2) = .ok (some 2) := position?_int two
  have index : indexOf writer = .int 2 := by decide +kernel
  have told : (Value.bool true).toJson.isOk = true := by decide +kernel
  refine ⟨?_, ?_, ?_⟩
  · have made : withItem (.list [.int 7]) (.int 2) (.bool true) = .ok [.int 7, .null, .bool true] := by
      unfold withItem
      rw [place]
      rfl
    have read : itemAt (.list [.int 7, .null, .bool true]) (.int 2) = .ok (.bool true) := by
      unfold itemAt
      rw [place]
      rfl
    have shown : (Value.numberText (.int 2)).isOk = true := by decide +kernel
    have hands : arraySet.plan.Hands (StandardBlock.sight writer (sessions 0)) _ _ := arraySet_hands (index ▸ made)
    have emits := (StandardBlock.invoked_hands rfl hands).1 ⟨index ▸ shown, told, by decide⟩
    have hands' : arrayGet.plan.Hands (StandardBlock.sight (reader [.int 7, .null, .bool true] []) (sessions 0)) _ _ :=
      arrayGet_hands read
    have emits' := (StandardBlock.invoked_hands rfl hands').1 ⟨shown, told, trivial⟩
    obtain ⟨r, same, -, reads⟩ := arrays writer sessions _ _ rfl emits
    cases same
    obtain ⟨w, same, found, -⟩ := reads (reader [.int 7, .null, .bool true] []) sessions _ rfl emits'
    refine ⟨_, w, emits, same ▸ emits', found 2 ?_ ?_⟩
    · rw [index]
      exact Number.isPosition_int.mpr rfl
    · exact Number.isPosition_int.mpr rfl
  · have nothing : Value.null.toJson.isOk = true := by decide +kernel
    have hands : arrayPush.plan.Hands (StandardBlock.sight writer (sessions 0)) _ _ := arrayPush_hands rfl
    have emits := (StandardBlock.invoked_hands rfl hands).1
      ⟨nothing, (by decide : (Value.list [.int 7, .null]).Emittable)⟩
    have hands' : arrayPop.plan.Hands (StandardBlock.sight (reader [.int 7, .null] []) (sessions 0)) _ _ :=
      @arrayPop_hands [.int 7] .null _ rfl
    have emits' := (StandardBlock.invoked_hands rfl hands').1 ⟨nothing, by decide, trivial⟩
    obtain ⟨r, same, pops⟩ := ends writer sessions _ _ rfl emits
    cases same
    exact ⟨_, emits, _, emits', pops (reader [.int 7, .null] []) sessions _ rfl emits'⟩
  · have one : (keyOf writer).toText = .ok "1" :=
      Value.numberText_int (a := 1) (lt_digitBound (by decide : 1 < Fault.digitLimitValue) (by decide))
    have one' : (keyOf (reader [] [(.text "1", .bool true)])).toText = .ok "1" := rfl
    have hands : objectSet.plan.Hands (StandardBlock.sight writer (sessions 0)) _ _ := objectSet_hands one
    have emits := (StandardBlock.invoked_hands rfl hands).1 told
    have hands' : objectGet.plan.Hands (StandardBlock.sight (reader [] [(.text "1", .bool true)]) (sessions 0)) _ _ :=
      objectGet_hands one'
    have emits' := (StandardBlock.invoked_hands rfl hands').1 ⟨told, trivial⟩
    obtain ⟨r, same, reads⟩ := objects writer sessions _ _ rfl emits
    cases same
    have found := reads (reader [] [(.text "1", .bool true)]) sessions _ rfl emits'
    exact ⟨_, emits, _, emits', found.1 (one'.trans one.symm)⟩

/-- Null and its text are the same text, but null stands for another key. -/
theorem objectGet_null : Value.null.toText = (Value.text "null").toText ∧ ∀ sessions,
    (objectSet.invoked (receiving [("object", .mapping []), ("key", .null), ("value", .bool true)])).Emits sessions
      [⟨"result", .mapping [(.text "property", .bool true)]⟩] .normal ∧
    ¬(objectGet.invoked (receiving [("object", .mapping [(.text "property", .bool true)]),
      ("key", .text "null")])).Emits sessions [⟨"value", .bool true⟩] .normal := by
  refine ⟨rfl, fun sessions => ⟨?_, fun emits => ?_⟩⟩
  · have told : (Value.bool true).toJson.isOk = true := by decide +kernel
    have hands : objectSet.plan.Hands (StandardBlock.sight (receiving [("object", .mapping []), ("key", .null),
      ("value", .bool true)]) (sessions 0)) _ _ := objectSet_hands rfl
    exact (StandardBlock.invoked_hands rfl hands).1 told
  · obtain ⟨key, written, same⟩ := objectGet_emits emits
    cases written
    cases same

end Standard

end BlockGraph
