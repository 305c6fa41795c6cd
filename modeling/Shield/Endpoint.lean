import Shield.Fs.Ops

/-!
# Endpoint configuration

`plugin.ShieldEndpoint` is the JSON object of a target's configuration; the plugins read it
through typed accessors of the `plugin` package, which is not part of the source here.  The
accessors are modelled from the spec's description of them (§6): `StringValue` fails when the
key is missing or its value is not a string, the `…Default` accessors return the default when
the key is missing and fail only on a value of the wrong type.  Whether a `…Default` accessor
fails is decided by the key's value alone, never by the default (`isOk_stringValueDefault`,
`isOk_arrayValueDefault`).
-/

namespace Shield

/-- A JSON value. -/
inductive Json where
  | null
  | bool (b : Bool)
  | num (n : Int)
  | str (s : String)
  | arr (xs : List Json)
  | obj (kvs : List (String × Json))

/-- The strings of a JSON array, when it holds nothing else. -/
def Json.strings : List Json → Option (List String)
  | [] => some []
  | .str s :: xs => (Json.strings xs).map (s :: ·)
  | _ :: _ => none

/-- A JSON string, the value `StringValue` and `StringValueDefault` accept. -/
def Json.isStr : Json → Bool
  | .str _ => true
  | _ => false

/-- A JSON array of strings, the value `ArrayValueDefault` accepts. -/
def Json.isStrArray : Json → Bool
  | .arr xs => (Json.strings xs).isSome
  | _ => false

/-- The key an endpoint accessor's error names. -/
def GoError.key? : GoError → Option String
  | .missingKey key | .typeMismatch key _ => some key
  | _ => none

/-- `plugin.ShieldEndpoint`: the value of each key, if any. -/
def Endpoint := String → Option Json

namespace Endpoint

/-- Modelled from the spec: `endpoint.StringValue(key)`. -/
def stringValue (ep : Endpoint) (key : String) : Except GoError String :=
  match ep key with
  | none => .error (.missingKey key)
  | some (.str s) => .ok s
  | some _ => .error (.typeMismatch key "string")

/-- Modelled from the spec: `endpoint.StringValueDefault(key, dflt)`. -/
def stringValueDefault (ep : Endpoint) (key dflt : String) : Except GoError String :=
  match ep key with
  | none => .ok dflt
  | some (.str s) => .ok s
  | some _ => .error (.typeMismatch key "string")

/-- Modelled from the spec: `endpoint.ArrayValueDefault(key, dflt)`, a slice that may be nil
(`none`). -/
def arrayValueDefault (ep : Endpoint) (key : String) (dflt : Option (List String)) :
    Except GoError (Option (List String)) :=
  match ep key with
  | none => .ok dflt
  | some (.arr xs) =>
    match Json.strings xs with
    | some ss => .ok (some ss)
    | none => .error (.typeMismatch key "array")
  | some _ => .error (.typeMismatch key "array")

/-! ## The key an accessor's error names -/

variable {ep : Endpoint} {key : String} {e : GoError}

theorem key_stringValue (h : ep.stringValue key = .error e) : e.key? = some key := by
  unfold stringValue at h
  split at h <;> cases h
  all_goals rfl

theorem key_stringValueDefault {dflt : String} (h : ep.stringValueDefault key dflt = .error e) :
    e.key? = some key := by
  unfold stringValueDefault at h
  split at h <;> cases h
  all_goals rfl

theorem key_arrayValueDefault {dflt : Option (List String)}
    (h : ep.arrayValueDefault key dflt = .error e) : e.key? = some key := by
  unfold arrayValueDefault at h
  split at h
  · cases h
  · split at h <;> cases h
    rfl
  · cases h; rfl

/-! ## Which values the accessors accept

Whether a `…Default` accessor fails depends on the key's value only, never on the default. -/

@[simp] theorem isOk_stringValueDefault (ep : Endpoint) (key dflt : String) :
    (ep.stringValueDefault key dflt).isOk = (ep key).all Json.isStr := by
  unfold stringValueDefault
  cases ep key with
  | none => rfl
  | some v => cases v <;> rfl

@[simp] theorem isOk_arrayValueDefault (ep : Endpoint) (key : String) (dflt : Option (List String)) :
    (ep.arrayValueDefault key dflt).isOk = (ep key).all Json.isStrArray := by
  unfold arrayValueDefault
  cases ep key with
  | none => rfl
  | some v =>
    cases v with
    | arr xs => cases h : Json.strings xs <;> simp [h, Json.isStrArray] <;> rfl
    | _ => rfl

end Endpoint

/-! ## Reading a chain of accessors -/

theorem except_bind_eq_ok {ε α β : Type} {x : Except ε α} {f : α → Except ε β} {b : β} :
    x >>= f = .ok b ↔ ∃ a, x = .ok a ∧ f a = .ok b := by
  cases x <;> simp [bind, Except.bind]

theorem except_bind_eq_error {ε α β : Type} {x : Except ε α} {f : α → Except ε β} {e : ε} :
    x >>= f = .error e ↔ x = .error e ∨ ∃ a, x = .ok a ∧ f a = .error e := by
  cases x <;> simp [bind, Except.bind]

theorem except_isOk_bind {ε α β : Type} {x : Except ε α} {f : α → Except ε β} :
    (x >>= f).isOk = true ↔ ∃ a, x = .ok a ∧ (f a).isOk = true := by
  cases x <;> simp [bind, Except.bind, Except.isOk, Except.toBool]

@[simp] theorem except_isOk_pure {ε α : Type} (a : α) : (pure a : Except ε α).isOk = true := rfl

theorem except_isOk_iff {ε α : Type} {x : Except ε α} : x.isOk = true ↔ ∃ a, x = .ok a := by
  cases x <;> simp [Except.isOk, Except.toBool]

end Shield
