import CommandGrammar.Parse.Lookup
import CommandGrammar.Proofs.Conversion
import CommandGrammar.Proofs.Keyed

/-! Values asked for under a type. What an occurrence has may be of any shape, since nothing holds
defaults and converters to the declared type. There are five ways from it to a value of the type
that is asked for, and each of them ends in that type. -/
namespace CommandGrammar

theorem toOption_eq_some_iff {ε α : Type} {result : Except ε α} {value : α} :
    result.toOption = some value ↔ result = .ok value := by
  cases result <;> simp [Except.toOption]

namespace Resolved

/-- The ways to a value of a type, of which an own value that has the type already goes first. A
value without content can only say that it is present. Any other is converted again, from the texts
that were given or, if there are none, from its own. -/
inductive Gives (resolved : Resolved) : Value → ValueType → Value → Prop where
  | kept : type.admits own = true → Gives resolved own type own
  | presence : Gives resolved .unit .bool (.bool true)
  | items : (ValueType.list element).admits own = false → own ≠ .unit → resolved.texts ≠ [] →
      List.Forall₂ (fun text item => element.convert text = .ok item) resolved.texts items →
      Gives resolved own (.list element) (.list items)
  | first : type.admits own = false → own ≠ .unit → type.isList = false →
      resolved.texts = text :: others → type.convert text = .ok value →
      Gives resolved own type value
  | shown : type.admits own = false → own ≠ .unit → resolved.texts = [] →
      type.convert own.text = .ok value → Gives resolved own type value

variable {resolved : Resolved} {type element : ValueType} {own value : Value} {text : String}
  {others : List String}

theorem admits_of_gives (gives : resolved.Gives own type value) : type.admits value = true := by
  cases gives with
  | kept fits => exact fits
  | presence => rfl
  | items _ _ _ converts => exact ValueType.admits_of_converts converts
  | first _ _ _ _ converts => exact ValueType.admits_of_convert converts
  | shown _ _ _ converts => exact ValueType.admits_of_convert converts

theorem valueAs_kept (fits : type.admits own = true) :
    resolved.valueAs? own (some type) = some own := by
  simp only [valueAs?, fits, if_true]

theorem valueAs_unit : resolved.valueAs? .unit (some type) =
    if type = .bool then some (.bool true) else none := by
  cases type <;> rfl

theorem valueAs_items (foreign : (ValueType.list element).admits own = false)
    (content : own ≠ .unit) (given : resolved.texts ≠ []) :
    resolved.valueAs? own (some (.list element)) =
      (resolved.texts.mapM element.convert).toOption.map .list := by
  obtain ⟨text, others, same⟩ := List.exists_cons_of_ne_nil given
  cases own <;> simp_all [valueAs?]

theorem valueAs_first (foreign : type.admits own = false) (content : own ≠ .unit)
    (scalar : type.isList = false) (given : resolved.texts = text :: others) :
    resolved.valueAs? own (some type) = (type.convert text).toOption := by
  cases type <;> cases own <;> simp_all [valueAs?, ValueType.isList]

theorem valueAs_shown (foreign : type.admits own = false) (content : own ≠ .unit)
    (given : resolved.texts = []) :
    resolved.valueAs? own (some type) = (type.convert own.text).toOption := by
  cases own <;> simp_all [valueAs?]

theorem valueAs_eq_some_iff :
    resolved.valueAs? own (some type) = some value ↔ resolved.Gives own type value := by
  constructor
  · intro answers
    by_cases fits : type.admits own = true
    · rw [valueAs_kept fits] at answers
      cases answers
      exact .kept fits
    rw [Bool.not_eq_true] at fits
    by_cases content : own = .unit
    · subst content
      rw [valueAs_unit] at answers
      split_ifs at answers with boolean
      cases answers
      subst boolean
      exact .presence
    rcases given : resolved.texts with _ | ⟨text, others⟩
    · rw [valueAs_shown fits content given, toOption_eq_some_iff] at answers
      exact .shown fits content given answers
    cases scalar : type.isList with
    | false =>
      rw [valueAs_first fits content scalar given, toOption_eq_some_iff] at answers
      exact .first fits content scalar given answers
    | true =>
      obtain ⟨element, rfl⟩ : ∃ element, type = .list element := by
        cases type with
        | list element => exact ⟨element, rfl⟩
        | _ => contradiction
      have nonempty : resolved.texts ≠ [] := by rw [given]; exact List.cons_ne_nil _ _
      rw [valueAs_items fits content nonempty, Option.map_eq_some_iff] at answers
      obtain ⟨items, converts, rfl⟩ := answers
      rw [toOption_eq_some_iff, mapM_eq_ok_iff] at converts
      exact .items fits content nonempty converts
  · intro gives
    cases gives with
    | kept fits => exact valueAs_kept fits
    | presence => exact valueAs_unit
    | items foreign content given converts =>
      rw [valueAs_items foreign content given, mapM_eq_ok_iff.mpr converts]
      rfl
    | first foreign content scalar given converts =>
      rw [valueAs_first foreign content scalar given, converts]
      rfl
    | shown foreign content given converts =>
      rw [valueAs_shown foreign content given, converts]
      rfl

end Resolved

/-- What values that were asked for have to do with the types they were asked for under. -/
structure TypeSafe (parse : Parse) : Prop where
  given : ∀ name type source value, parse.request? ⟨name, some type, source⟩ = some value ↔
    ∃ resolved own, parse.lookup? (Alias.lookupKey name) source = some resolved ∧
      resolved.value? = some own ∧ resolved.Gives own type value
  conforms : ∀ name type source value,
    parse.request? ⟨name, some type, source⟩ = some value → type.admits value = true
  kept : ∀ name type source resolved own,
    parse.lookup? (Alias.lookupKey name) source = some resolved → resolved.value? = some own →
    type.admits own = true → parse.request? ⟨name, some type, source⟩ = some own
  bound : ∀ requests key type value,
    (∀ request ∈ requests, request.name = key → request.type = some type) →
    (key, value) ∈ parse.bind requests → type.admits value = true

namespace Parse
variable {parse : Parse} {value : Value}

theorem request_eq_some_iff {request : Request} :
    parse.request? request = some value ↔
      ∃ resolved own, parse.lookup? (Alias.lookupKey request.name) request.source = some resolved ∧
        resolved.value? = some own ∧ resolved.valueAs? own request.type = some value := by
  simp [request?, Option.bind_eq_some_iff]

/-- What is bound to a key answers a request for it. -/
theorem mem_bind {requests : List Request} {key : String}
    (bound : (key, value) ∈ parse.bind requests) :
    ∃ request ∈ requests, request.name = key ∧ parse.request? request = some value := by
  obtain ⟨request, member, answered⟩ := List.mem_filterMap.mp (Keyed.mem_ofList bound)
  obtain ⟨found, answers, same⟩ := Option.map_eq_some_iff.mp answered
  cases same
  exact ⟨request, member, rfl, answers⟩

end Parse

/-- No declaration and no argument list has to be well behaved for this. -/
theorem typed_lookups_safe (parse : Parse) : TypeSafe parse := by
  have given (name : String) (type : ValueType) (source : Source) (value : Value) :
      parse.request? ⟨name, some type, source⟩ = some value ↔
        ∃ resolved own, parse.lookup? (Alias.lookupKey name) source = some resolved ∧
          resolved.value? = some own ∧ resolved.Gives own type value := by
    simp only [Parse.request_eq_some_iff, Resolved.valueAs_eq_some_iff]
  have conforms (name : String) (type : ValueType) (source : Source) (value : Value)
      (answers : parse.request? ⟨name, some type, source⟩ = some value) :
      type.admits value = true := by
    obtain ⟨resolved, own, -, -, gives⟩ := (given name type source value).mp answers
    exact Resolved.admits_of_gives gives
  constructor
  case given => exact given
  case conforms => exact conforms
  case kept =>
    intro name type source resolved own found has fits
    exact (given name type source own).mpr ⟨resolved, own, found, has, .kept fits⟩
  case bound =>
    intro requests key type value single bound
    obtain ⟨request, member, named, answers⟩ := Parse.mem_bind bound
    have typed := single request member named
    obtain ⟨name, asked, source⟩ := request
    subst typed
    exact conforms name type source value answers

end CommandGrammar
