import MpcRegistry.Ecma.BigInt

/-!
# Rule predicates

Source: packages/policy/src/predicate.ts:11-129. `facts path` is what the source
reads as `facts[path]`, where `undefined` says that the fact is not recorded.
-/
namespace MpcRegistry.Policy
open Library Library.Outcome Ecma

inductive Predicate where
  | always
  | never
  | and (operands : List Predicate)
  | or (operands : List Predicate)
  | not (operand : Predicate)
  | eq (path value : Text)
  | «in» (path : Text) (values : List Text)
  | «exists» (path : Text)
  | gte (path value : Text)
  | lte (path value : Text)

inductive FactValue where
  | scalar (value : Text)
  | array (items : List Text)
  deriving DecidableEq, Repr

abbrev Facts := Text → Option FactValue

/-- A `PredicateError`, or the `SyntaxError` of `BigInt`. -/
inductive Thrown where
  | predicateError (message : Text)
  | syntaxError
  deriving DecidableEq, Repr

/-! ## Integers in texts -/

def bigInt (text : Text) : Except Thrown Int :=
  (parseBigInt text).elim (.error .syntaxError) .ok

/-- `/^-?(0|[1-9][0-9]*)$/` -/
def isInteger (value : Text) : Bool :=
  let digits := if value.head? = some 0x2d then value.tail else value
  digits = units "0" ||
    match digits with
    | [] => false
    | first :: rest => 0x31 ≤ first && first ≤ 0x39 && rest.all Json.isDigit

def toBigInt (value context : Text) : Except Thrown Int :=
  if !isInteger value then
    .error (.predicateError (context ++
      units ": numeric comparison accepts only integer decimal strings (got: " ++ value ++ units ")"))
  else bigInt value

/-! ## Evaluation -/

def readScalar (facts : Facts) (path : Text) : Except Thrown (Option Text) :=
  match facts path with
  | none => .ok none
  | some (.array _) =>
    .error (.predicateError (path ++ units " is an array. It cannot be used in a scalar comparison"))
  | some (.scalar value) => .ok (some value)

/-- The body that `gte` and `lte` share. -/
def compareScalar (holds : Int → Int → Bool) (facts : Facts) (path value : Text) :
    Except Thrown Bool := do
  match ← readScalar facts path with
  | none => .ok false
  | some raw =>
    let left ← toBigInt raw path
    let right ← toBigInt value (path ++ units " threshold")
    .ok (holds left right)

mutual

def evaluatePredicate (facts : Facts) : Predicate → Except Thrown Bool
  | .always => .ok true
  | .never => .ok false
  | .and operands => evaluateEvery facts operands
  | .or operands => evaluateSome facts operands
  | .not operand => do
    let value ← evaluatePredicate facts operand
    .ok (!value)
  | .eq path value =>
    match facts path with
    | none => .ok false
    | some (.array items) => .ok (items.contains value)
    | some (.scalar scalar) => .ok (scalar = value)
  | .in path values =>
    match facts path with
    | none => .ok false
    | some (.array items) => .ok (items.any values.contains)
    | some (.scalar scalar) => .ok (values.contains scalar)
  | .exists path =>
    match facts path with
    | none => .ok false
    | some (.array items) => .ok (0 < items.length)
    | some (.scalar _) => .ok true
  | .gte path value => compareScalar (fun left right => right ≤ left) facts path value
  | .lte path value => compareScalar (fun left right => left ≤ right) facts path value

/-- `operands.every`, which stops at the first operand that is false. -/
def evaluateEvery (facts : Facts) : List Predicate → Except Thrown Bool
  | [] => .ok true
  | operand :: rest => do
    let value ← evaluatePredicate facts operand
    if value then evaluateEvery facts rest else .ok false

/-- `operands.some`, which stops at the first operand that is true. -/
def evaluateSome (facts : Facts) : List Predicate → Except Thrown Bool
  | [] => .ok false
  | operand :: rest => do
    let value ← evaluatePredicate facts operand
    if value then .ok true else evaluateSome facts rest

end

/-! ## Paths -/

/-- `Set.add`, on the elements in the order they came. -/
def setAdd (out : List Text) (path : Text) : List Text :=
  if path ∈ out then out else out ++ [path]

mutual

def collectPredicatePaths (out : List Text) : Predicate → List Text
  | .always | .never => out
  | .and operands | .or operands => collectOperandPaths out operands
  | .not operand => collectPredicatePaths out operand
  | .eq path _ | .in path _ | .exists path | .gte path _ | .lte path _ => setAdd out path

def collectOperandPaths (out : List Text) : List Predicate → List Text
  | [] => out
  | operand :: rest => collectOperandPaths (collectPredicatePaths out operand) rest

end

def Predicate.paths (predicate : Predicate) : List Text := collectPredicatePaths [] predicate

section Leaves

variable (path value : Text) (values : List Text)

@[simp] theorem Predicate.paths_eq : (Predicate.eq path value).paths = [path] := rfl

@[simp] theorem Predicate.paths_in : (Predicate.in path values).paths = [path] := rfl

@[simp] theorem Predicate.paths_exists : (Predicate.exists path).paths = [path] := rfl

@[simp] theorem Predicate.paths_gte : (Predicate.gte path value).paths = [path] := rfl

@[simp] theorem Predicate.paths_lte : (Predicate.lte path value).paths = [path] := rfl

end Leaves

@[simp] theorem mem_setAdd {out : List Text} {path added : Text} :
    path ∈ setAdd out added ↔ path ∈ out ∨ path = added := by
  unfold setAdd
  split
  · next hmem => exact ⟨.inl, fun h => h.elim id fun heq => heq ▸ hmem⟩
  · simp

mutual

/-- The set passed along only grows, by the same paths whatever it held. -/
theorem mem_collectPredicatePaths {path : Text} (out : List Text) (predicate : Predicate) :
    path ∈ collectPredicatePaths out predicate ↔ path ∈ out ∨ path ∈ predicate.paths := by
  cases predicate with
  | always | never => simp [Predicate.paths, collectPredicatePaths]
  | and operands | or operands =>
    simp only [Predicate.paths, collectPredicatePaths]
    rw [mem_collectOperandPaths out operands, mem_collectOperandPaths [] operands]
    simp
  | not operand =>
    simp only [Predicate.paths, collectPredicatePaths]
    exact mem_collectPredicatePaths out operand
  | eq | «in» | «exists» | gte | lte => simp [Predicate.paths, collectPredicatePaths]

theorem mem_collectOperandPaths {path : Text} (out : List Text) (operands : List Predicate) :
    path ∈ collectOperandPaths out operands ↔
      path ∈ out ∨ ∃ operand ∈ operands, path ∈ operand.paths := by
  cases operands with
  | nil => simp [collectOperandPaths]
  | cons operand rest =>
    rw [collectOperandPaths, mem_collectOperandPaths _ rest, mem_collectPredicatePaths out operand]
    simp [or_assoc]

end

theorem mem_paths_operand {operands : List Predicate} {operand : Predicate} {path : Text}
    (hmem : operand ∈ operands) (h : path ∈ operand.paths) :
    path ∈ (Predicate.and operands).paths ∧ path ∈ (Predicate.or operands).paths := by
  have hpath := (mem_collectOperandPaths [] operands).mpr (.inr ⟨operand, hmem, h⟩)
  exact ⟨hpath, hpath⟩

/-! ## What an evaluation reads -/

section Reads

variable {facts facts' : Facts}

theorem readScalar_congr {path : Text} (h : facts path = facts' path) :
    readScalar facts path = readScalar facts' path := by
  simp only [readScalar, h]

theorem compareScalar_congr {path : Text} (holds : Int → Int → Bool) (value : Text)
    (h : facts path = facts' path) :
    compareScalar holds facts path value = compareScalar holds facts' path value := by
  simp only [compareScalar, readScalar_congr h]

mutual

/-- An evaluation reads nothing but the collected paths, whichever way it branches. -/
theorem evaluatePredicate_congr (predicate : Predicate)
    (same : ∀ path ∈ predicate.paths, facts path = facts' path) :
    evaluatePredicate facts predicate = evaluatePredicate facts' predicate := by
  cases predicate with
  | always | never => rfl
  | and operands =>
    exact evaluateEvery_congr operands fun operand hmem path hpath =>
      same path (mem_paths_operand hmem hpath).1
  | or operands =>
    exact evaluateSome_congr operands fun operand hmem path hpath =>
      same path (mem_paths_operand hmem hpath).2
  | not operand =>
    simp only [evaluatePredicate, evaluatePredicate_congr operand same]
  | eq path value => simp only [evaluatePredicate, same path (by simp)]
  | «in» path values => simp only [evaluatePredicate, same path (by simp)]
  | «exists» path => simp only [evaluatePredicate, same path (by simp)]
  | gte path value | lte path value =>
    exact compareScalar_congr _ value (same path (by simp))

theorem evaluateEvery_congr (operands : List Predicate)
    (same : ∀ operand ∈ operands, ∀ path ∈ operand.paths, facts path = facts' path) :
    evaluateEvery facts operands = evaluateEvery facts' operands := by
  cases operands with
  | nil => rfl
  | cons operand rest =>
    simp only [evaluateEvery]
    rw [evaluatePredicate_congr operand (same operand List.mem_cons_self),
      evaluateEvery_congr rest fun other hmem => same other (List.mem_cons_of_mem _ hmem)]

theorem evaluateSome_congr (operands : List Predicate)
    (same : ∀ operand ∈ operands, ∀ path ∈ operand.paths, facts path = facts' path) :
    evaluateSome facts operands = evaluateSome facts' operands := by
  cases operands with
  | nil => rfl
  | cons operand rest =>
    simp only [evaluateSome]
    rw [evaluatePredicate_congr operand (same operand List.mem_cons_self),
      evaluateSome_congr rest fun other hmem => same other (List.mem_cons_of_mem _ hmem)]

end

end Reads

end MpcRegistry.Policy
