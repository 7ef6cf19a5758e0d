/-
Schemas of whole numbers beside schemas of numbers. The two kinds have the same
parameters and ask the same of a number; the one asks further that the number be
whole, and of a value that it demands likewise. That is all the difference there
is, to the errors and rejections (`CoreKind.integer_refines_number`).
-/
import Conform.Proofs.Compile.Outcome
import Conform.Proofs.Check.Rejected
import Conform.Proofs.Range.Bounds

namespace Conform

/-- The error with other URIs for the types that it names. -/
def SchemaError.mapUri (f : String → String) : SchemaError → SchemaError
  | unknownType uri => unknownType (f uri)
  | composedTypeArguments uri => composedTypeArguments (f uri)
  | unknownParameter parameter uri => unknownParameter parameter (f uri)
  | missingParameter parameter uri => missingParameter parameter (f uri)
  | invalidParameter parameter uri fault => invalidParameter parameter (f uri) fault
  | duplicateType uri => duplicateType (f uri)
  | config entry source => config entry (source.mapUri f)
  | e => e

/-- No type is named by what is wrong with a range. -/
theorem Range.mapUri_of_ofValue {f : String → String} {v : Value} {e : SchemaError}
    (h : ofValue v = .error e) : e.mapUri f = e := by
  cases v with
  | map entries =>
    obtain ⟨key, fault, -⟩ := exists_firstFault h
    cases fault <;> rfl
  | _ => cases h; rfl

theorem Number.isWhole_iff_real {n : Number} :
    n.IsWhole ↔ ∃ i : Int, n.real? = some ((i : ℝ) : EReal) := by
  have place (i : Int) : ((i : ℝ) : EReal) = (Extended.exact (Dyadic.ofInt i)).place := by
    have whole : (Dyadic.ofInt i).toRat = i := Dyadic.toRat_intCast i
    simp [Extended.place, whole]
  simp only [IsWhole, real?_eq, place, Option.map_eq_some_iff]
  refine exists_congr fun i => ⟨fun h => ⟨_, h, rfl⟩, fun h => ?_⟩
  obtain ⟨x, hx, same⟩ := h
  rw [hx, Extended.place_injective same]

namespace Checker

variable {test : NumberTest} {v : Value}

/-- What is asked of a number is asked by both kinds alike, each at its own path. -/
theorem numberFor_eq_replacing (k k' : CoreKind) :
    numberFor k test v = replacing k.path (numberFor k' test v) := by
  cases v with
  | number n =>
    obtain ⟨range, value⟩ := test
    have inRange : (optionally range fun r =>
          if r.contains n then accept
          else rejectUnexpected k ("number in range " ++ r.text) (.number n)) =
        replacing k.path (optionally range fun r =>
          if r.contains n then accept
          else rejectUnexpected k' ("number in range " ++ r.text) (.number n)) := by
      cases range with
      | none => rfl
      | some r => cases hr : r.contains n <;> simp only [optionally, hr] <;> rfl
    have ofValue : (optionally value fun want =>
          if want.equals n then accept else rejectUnexpected k want.text (.number n)) =
        replacing k.path (optionally value fun want =>
          if want.equals n then accept else rejectUnexpected k' want.text (.number n)) := by
      cases value with
      | none => rfl
      | some want => cases hw : want.equals n <;> simp only [optionally, hw] <;> rfl
    simp only [numberFor, inRange, ofValue]
    cases (optionally range _ : Except Rejection Unit) <;> rfl
  | _ => rfl

theorem integer_of_number_error {e : Rejection} (h : number test v = .error e) :
    integer test v = .error ⟨e.message, CoreKind.integer.path⟩ := by
  have first : numberFor .integer test v = .error ⟨e.message, CoreKind.integer.path⟩ := by
    rw [numberFor_eq_replacing .integer .number]
    exact replacing_of_error h
  unfold integer
  rw [first]
  rfl

theorem integer_of_number_ok {n : Number} (h : number test (.number n) = .ok ()) :
    integer test (.number n) =
      if n.isIntegral then accept else rejectUnexpected .integer "Integer" (.number n) := by
  have first : numberFor .integer test (.number n) = .ok () := by
    rw [numberFor_eq_replacing .integer .number]
    exact (replacing_ok_iff _).2 h
  unfold integer
  rw [then_of_ok first]
  rfl

end Checker

namespace CoreKind

variable {sub : Value → Logged Node} {members : Table Value} {test : Checker.NumberTest}

/-- The URI of whole numbers in place of that of numbers. -/
def asInteger (uri : String) : String := if uri = number.uri then integer.uri else uri

/-! ## Reading the parameters -/

/-- Steps that fail alike but for the URI fail alike one after the other. -/
theorem result_bind {α β : Type} {x y : Logged α} {g h : α → Logged β}
    (first : y.result = x.result.mapError (SchemaError.mapUri asInteger))
    (next : ∀ a, (h a).result = (g a).result.mapError (SchemaError.mapUri asInteger)) :
    (y >>= h).result = (x >>= g).result.mapError (SchemaError.mapUri asInteger) := by
  cases hx : x.result with
  | ok a =>
    rw [hx] at first
    rw [Logged.bind_of_ok hx, Logged.bind_of_ok first]
    exact next a
  | error e =>
    rw [hx] at first
    rw [Logged.bind_of_error hx, Logged.bind_of_error first]
    rfl

theorem optional_value_result :
    (optional members "value" integer.numberValue).result =
      (optional members "value" number.numberValue).result.mapError
        (SchemaError.mapUri asInteger) := by
  unfold optional
  cases members.get? "value" with
  | none => rfl
  | some v => cases v <;> rfl

theorem optional_range_result :
    (optional members "range" range).result =
      (optional members "range" range).result.mapError (SchemaError.mapUri asInteger) := by
  unfold optional
  cases members.get? "range" with
  | none => rfl
  | some v =>
    have result : (some <$> range v).result = (Range.ofValue v).map some := by
      rw [range]
      cases Range.ofValue v <;> rfl
    dsimp only
    rw [result]
    cases h : Range.ofValue v with
    | ok limits => rfl
    | error e => exact congrArg Except.error (Range.mapUri_of_ofValue h).symm

/-- The two kinds read their parameters alike, but for the URI that an error tells. -/
theorem numberTest_integer :
    (numberTest integer members).result =
      (numberTest number members).result.mapError (SchemaError.mapUri asInteger) :=
  result_bind optional_value_result fun _ => result_bind optional_range_result fun _ => rfl

/-- A demanded value of a schema of numbers is the one in its parameter. -/
theorem Asks.value_iff (h : Asks members test) {w : Number} :
    test.value = some w ↔ members.get? "value" = some (.number w) := by
  have rel := h.value
  generalize members.get? "value" = given, test.value = value at rel
  cases rel with
  | none => simp
  | some same => simp [same, eq_comm]

theorem integerTest_of_number (h : (numberTest number members).result = .ok test) :
    (integerTest members).result =
      match test.value with
      | none => .ok test
      | some w =>
        if w.isIntegral then .ok test
        else .error (.invalidParameter "value" integer.uri (.notInteger w)) := by
  have read : (numberTest integer members).result = .ok test := by
    rw [numberTest_integer, h]
    rfl
  unfold integerTest
  rw [Logged.bind_of_ok read]
  cases test.value with
  | none => rfl
  | some w => dsimp only; split <;> rfl

/-! ## Nodes -/

theorem number_result :
    (constructNode sub members number).result = (numberTest number members).result.map .number := by
  cases h : (numberTest number members).result with
  | ok test => rw [constructNode, Logged.bind_of_ok h]; rfl
  | error e => rw [constructNode, Logged.bind_of_error h]; rfl

theorem integer_result :
    (constructNode sub members integer).result = (integerTest members).result.map .integer := by
  cases h : (integerTest members).result with
  | ok test => rw [constructNode, Logged.bind_of_ok h]; rfl
  | error e => rw [constructNode, Logged.bind_of_error h]; rfl

theorem exists_test_of_number {n : Node} (h : (constructNode sub members number).result = .ok n) :
    ∃ test, (numberTest number members).result = .ok test ∧ n = .number test := by
  rw [number_result] at h
  cases ht : (numberTest number members).result with
  | ok test => rw [ht] at h; cases h; exact ⟨test, rfl, rfl⟩
  | error e => rw [ht] at h; cases h

theorem integer_of_number_error {e : SchemaError}
    (h : (constructNode sub members number).result = .error e) :
    (constructNode sub members integer).result = .error (e.mapUri asInteger) := by
  rw [number_result] at h
  cases ht : (numberTest number members).result with
  | ok test => rw [ht] at h; cases h
  | error e' =>
    rw [ht] at h
    cases h
    have fails : (numberTest integer members).result = .error (e.mapUri asInteger) := by
      rw [numberTest_integer, ht]
      rfl
    rw [integer_result, integerTest, Logged.bind_of_error fails]
    rfl

/-- If both kinds make a node, then of one test, and the value that it demands is whole. -/
theorem exists_test_of_both {n i : Node} (hn : (constructNode sub members number).result = .ok n)
    (hi : (constructNode sub members integer).result = .ok i) :
    ∃ test, n = .number test ∧ i = .integer test ∧ Asks members test ∧
      ∀ w, test.value = some w → w.isIntegral = true := by
  obtain ⟨test, ht, rfl⟩ := exists_test_of_number hn
  rw [integer_result] at hi
  cases ht' : (integerTest members).result with
  | error e => rw [ht'] at hi; cases hi
  | ok test' =>
    rw [ht'] at hi
    cases hi
    obtain ⟨asks, integral⟩ := integerTest_ok_iff.1 ht'
    have same : test' = test := by
      rw [integerTest_of_number ht] at ht'
      split at ht'
      · cases ht'; rfl
      · split at ht' <;> cases ht'
        rfl
    exact ⟨test', same ▸ rfl, rfl, asks, integral⟩

/-- A number that is accepted for its value is whole if the demanded value is. -/
theorem isIntegral_of_accepted {w n : Number}
    (integral : ∀ w, test.value = some w → w.isIntegral = true)
    (demanded : test.value = some w) (accepted : Checker.number test (.number n) = .ok ()) :
    n.isIntegral = true := by
  obtain ⟨_, same, met⟩ := Checker.number_ok_iff.1 accepted
  cases same
  rw [← Number.isIntegral_congr (Number.equals_iff.1 (met.value w demanded)).1]
  exact integral w demanded

/-- A schema of whole numbers is a schema of numbers that asks further for whole numbers, and
differs in nothing else. It fails where the other fails, for the same fault under its own URI, and
else only for a demanded value that is not whole. It rejects what the other rejects, with the same
message at its own path, and else only numbers that are not whole; of these there are none if a
value is demanded. -/
theorem integer_refines_number (sub : Value → Logged Node) (members : Table Value) :
    (∀ e, (constructNode sub members number).result = .error e →
      (constructNode sub members integer).result = .error (e.mapUri asInteger)) ∧
    (∀ n, (constructNode sub members number).result = .ok n →
      (∀ w, members.get? "value" = some (.number w) → ¬ w.IsWhole →
        (constructNode sub members integer).result =
          .error (.invalidParameter "value" integer.uri (.notInteger w))) ∧
      ((∀ w, members.get? "value" = some (.number w) → w.IsWhole) →
        ∃ i, (constructNode sub members integer).result = .ok i)) ∧
    (∀ n i, (constructNode sub members number).result = .ok n →
      (constructNode sub members integer).result = .ok i → ∀ v,
        (∀ e, n.validate v = .error e →
          e.path = "/num" ∧ i.validate v = .error ⟨e.message, "/int"⟩) ∧
        (n.validate v = .ok () → ∃ x, v = .number x ∧
          (x.IsWhole → i.validate v = .ok ()) ∧
          (¬ x.IsWhole → i.validate v = .error ⟨"expected Integer got " ++ v.text, "/int"⟩) ∧
          (members.contains "value" = true → i.validate v = .ok ()))) ∧
    ∀ x : Number, x.IsWhole ↔ ∃ k : Int, x.real? = some ((k : ℝ) : EReal) := by
  refine ⟨fun e => integer_of_number_error, fun n hn => ?compiling, fun n i hn hi v => ?checking,
    fun x => Number.isWhole_iff_real⟩
  case compiling =>
    obtain ⟨test, ht, -⟩ := exists_test_of_number hn
    have value_iff (w : Number) := (numberTest_ok_iff.1 ht).value_iff (w := w)
    simp only [integer_result, integerTest_of_number ht, ← value_iff, ← Number.isIntegral_iff]
    refine ⟨fun w hw fractional => ?_, fun whole => ?_⟩
    · simp only [hw, if_neg fractional]
      rfl
    · cases hw : test.value with
      | none => exact ⟨_, rfl⟩
      | some w => exact ⟨.integer test, by simp only [whole w hw, if_true]; rfl⟩
  case checking =>
    obtain ⟨test, rfl, rfl, asks, integral⟩ := exists_test_of_both hn hi
    refine ⟨fun e rejected => ⟨?_, Checker.integer_of_number_error rejected⟩, fun accepted => ?_⟩
    · exact Checker.reports_numberFor e rejected
    obtain ⟨x, rfl, -⟩ := Checker.number_ok_iff.1 accepted
    have next : (Node.integer test).validate (.number x) = _ :=
      Checker.integer_of_number_ok accepted
    simp only [next, ← Number.isIntegral_iff]
    refine ⟨x, rfl, fun whole => if_pos whole, fun fractional => if_neg fractional, fun given => ?_⟩
    obtain ⟨given, hg⟩ := Option.isSome_iff_exists.1 given
    have rel := asks.value
    rw [hg] at rel
    generalize hw : test.value = value at rel
    cases rel with
    | some same => exact if_pos (isIntegral_of_accepted integral hw accepted)

/-- Schemas without a demanded value, with one that is whole, and with one that is not. -/
theorem integer_refines_number_by_value :
    let sub : Value → Logged Node := fun _ => pure .nil
    let demanding (x : Number) : Table Value := Table.ofList [("value", .number x)]
    let four : Number := .float (.finite false 0x10000000000000 (-50) (by decide))
    let half : Number := .float (.finite false 0x10000000000000 (-53) (by decide))
    (∃ n i, (constructNode sub .empty number).result = .ok n ∧
      (constructNode sub .empty integer).result = .ok i ∧
      i.validate (.number four) = .ok () ∧ n.validate (.number half) = .ok () ∧
      i.validate (.number half) = .error ⟨"expected Integer got 0.5", "/int"⟩ ∧
      i.validate .null = .error ⟨"expected number got nil", "/int"⟩) ∧
    (∃ n i, (constructNode sub (demanding four) number).result = .ok n ∧
      (constructNode sub (demanding four) integer).result = .ok i ∧
      i.validate (.number (.int 4)) = .ok ()) ∧
    (∃ n, (constructNode sub (demanding half) number).result = .ok n ∧
      (constructNode sub (demanding half) integer).result =
        .error (.invalidParameter "value" integer.uri (.notInteger half))) := by
  intro sub demanding four half
  have isWhole : four.IsWhole := Number.isIntegral_iff.1 (by decide)
  have notWhole : ¬ half.IsWhole := fun h => absurd (Number.isIntegral_iff.2 h) (by decide)
  refine ⟨?undemanded, ?whole, ?fractional⟩
  case undemanded =>
    obtain ⟨-, compiles, checks, -⟩ := integer_refines_number sub .empty
    have hn : (constructNode sub .empty number).result = .ok (.number ⟨none, none⟩) := rfl
    obtain ⟨i, hi⟩ := (compiles _ hn).2 fun w h => nomatch h
    refine ⟨_, i, hn, hi, ?_, rfl, ?_, ((checks _ i hn hi .null).1 _ rfl).2⟩
    · obtain ⟨x, hx, accepts, -⟩ := (checks _ i hn hi (.number four)).2 rfl
      cases hx
      exact accepts isWhole
    · obtain ⟨x, hx, -, rejects, -⟩ := (checks _ i hn hi (.number half)).2 rfl
      cases hx
      rw [rejects notWhole]
      decide +kernel
  case whole =>
    obtain ⟨-, compiles, checks, -⟩ := integer_refines_number sub (demanding four)
    have hn : (constructNode sub (demanding four) number).result =
      .ok (.number ⟨none, some four⟩) := rfl
    obtain ⟨i, hi⟩ := (compiles _ hn).2 fun w h => by cases h; exact isWhole
    obtain ⟨x, hx, -, -, accepts⟩ := (checks _ i hn hi (.number (.int 4))).2 rfl
    exact ⟨_, i, hn, hi, accepts rfl⟩
  case fractional =>
    obtain ⟨-, compiles, -⟩ := integer_refines_number sub (demanding half)
    exact ⟨_, rfl, (compiles _ rfl).1 half rfl notWhole⟩

end CoreKind

end Conform
