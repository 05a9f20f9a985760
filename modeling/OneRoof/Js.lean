import OneRoof.Lib.Decimal

/-!
# The JavaScript values a request body can hold

`JSON.parse` builds trees of scalars, arrays and objects; `undefined` is what a
missing property reads as. A number that is not whole is kept by the text
JavaScript prints for it. An object that carries its own `toString` cannot be
turned into a string: JSON holds no functions, so the call fails. Every `none`
in this file is an exception.
-/

namespace OneRoof

inductive JsVal where
  | undefined
  | null
  | bool (b : Bool)
  | num (n : Int)
  | dec (text : String)
  | str (s : String)
  | arr (items : List JsVal)
  | obj (fields : List (String × JsVal))

namespace JsVal

def ofInt : Option Int → JsVal
  | some n => num n
  | none => undefined

/-- Neither an array nor an object. -/
def isScalar : JsVal → Bool
  | arr _ => false
  | obj _ => false
  | _ => true

/-- A property of a value that is neither `undefined` nor `null`. -/
def get : JsVal → String → JsVal
  | obj fields, key => ((fields.find? (fun f => f.1 = key)).map Prod.snd).getD undefined
  | _, _ => undefined

/-- Property access as it is written: it throws on `undefined` and on `null`. -/
def prop : JsVal → String → Option JsVal
  | undefined, _ => none
  | null, _ => none
  | v, key => some (v.get key)

def hasOwn : JsVal → String → Bool
  | obj fields, key => fields.any (fun f => f.1 = key)
  | _, _ => false

/-- Assigning a property. An array keeps only what is assigned: none of the
handlers that assign reads it by position. -/
def set : JsVal → String → JsVal → JsVal
  | obj fields, key, v => obj ((key, v) :: fields.filter (fun f => f.1 ≠ key))
  | _, key, v => obj [(key, v)]

def truthy : JsVal → Bool
  | undefined => false
  | null => false
  | bool b => b
  | num n => n ≠ 0
  | dec _ => true
  | str s => s ≠ ""
  | arr _ => true
  | obj _ => true

mutual

/-- String conversion, as in `"" + v` and in a template literal. -/
def toStr : JsVal → Option String
  | undefined => some "undefined"
  | null => some "null"
  | bool b => some (toString b)
  | num n => some (toString n)
  | dec t => some t
  | str s => some s
  | arr l => (joinStr l).map (String.intercalate ",")
  | obj fields =>
    if fields.any (fun f => f.1 = "toString") then none else some "[object Object]"

/-- The parts `Array.prototype.join` puts together. -/
def joinStr : List JsVal → Option (List String)
  | [] => some []
  | undefined :: vs => (joinStr vs).map ("" :: ·)
  | null :: vs => (joinStr vs).map ("" :: ·)
  | v :: vs => do return (← toStr v) :: (← joinStr vs)

end

/-- White space and line terminators of the language. -/
def isSpace (c : Char) : Bool :=
  c.toNat ∈ [9, 10, 11, 12, 13, 32, 160, 5760, 8192, 8193, 8194, 8195, 8196, 8197, 8198,
    8199, 8200, 8201, 8202, 8232, 8233, 8239, 8287, 12288, 65279]

def trimmed (s : String) : List Char :=
  (((s.toList.dropWhile isSpace).reverse).dropWhile isSpace).reverse

/-- Digits of a text in radix two to sixteen. -/
def digitOf (radix : Nat) (c : Char) : Option Nat :=
  let d := if c.isDigit then some (c.toNat - 48)
    else if 'a' ≤ c ∧ c ≤ 'f' then some (c.toNat - 87)
    else if 'A' ≤ c ∧ c ≤ 'F' then some (c.toNat - 55) else none
  d.filter (· < radix)

/-- The digits at the front, and what follows them. -/
def digits (radix : Nat) : List Char → List Nat × List Char
  | [] => ([], [])
  | c :: cs => match digitOf radix c with
    | some d => (d :: (digits radix cs).1, (digits radix cs).2)
    | none => ([], c :: cs)

def valueOf (radix : Nat) (ds : List Nat) : Nat := ds.foldl (fun n d => radix * n + d) 0

def wholeNumeral (radix : Nat) (cs : List Char) : Option ℚ :=
  match digits radix cs with
  | (d :: ds, []) => some (valueOf radix (d :: ds))
  | _ => none

/-- A text as a number; `none` is NaN. -/
def textNumber (s : String) : Option ℚ :=
  match trimmed s with
  | [] => some 0
  | '0' :: 'x' :: cs => wholeNumeral 16 cs
  | '0' :: 'X' :: cs => wholeNumeral 16 cs
  | '0' :: 'o' :: cs => wholeNumeral 8 cs
  | '0' :: 'O' :: cs => wholeNumeral 8 cs
  | '0' :: 'b' :: cs => wholeNumeral 2 cs
  | '0' :: 'B' :: cs => wholeNumeral 2 cs
  | cs => match Decimal.scan cs with
    | some (q, []) => some q
    | _ => none

/-- Number conversion; the outer `none` is an exception, the inner one NaN. -/
def toNumber : JsVal → Option (Option ℚ)
  | undefined => some none
  | null => some (some 0)
  | bool b => some (some b.toNat)
  | num n => some (some n)
  | dec t => some (textNumber t)
  | str s => some (textNumber s)
  | v => v.toStr.map textNumber

/-- `==` on scalars. The spelling of a number decides when it has no value here,
as for a numeral too large for the type. -/
def scalarEq : JsVal → JsVal → Bool
  | undefined, undefined => true
  | undefined, null => true
  | null, undefined => true
  | null, null => true
  | undefined, _ => false
  | null, _ => false
  | _, undefined => false
  | _, null => false
  | str s, str t => s = t
  | dec s, dec t => s = t
  | v, w => v.toNumber ≠ some none ∧ v.toNumber = w.toNumber

/-- `==`. Two parsed arrays or objects are never the same object; against a
scalar they count by their string. -/
def looseEq (v w : JsVal) : Option Bool :=
  match v.isScalar, w.isScalar with
  | true, true => some (scalarEq v w)
  | false, false => some false
  | false, true =>
    if w matches undefined | null then some false else v.toStr.map (fun s => scalarEq (str s) w)
  | true, false =>
    if v matches undefined | null then some false else w.toStr.map (fun s => scalarEq v (str s))

/-- Whole numbers that do not round to infinity. Below that they are kept exactly: a double
that is too large for a column is cut to its bound as the exact number is. -/
def finite (n : Int) : Option Int := if n.natAbs < 2 ^ 1024 - 2 ^ 970 then some n else none

/-- `parseInt` of a text, without a radix; `none` is NaN or infinite. Either is printed into
a statement as a name that no column has. -/
def parseText (s : String) : Option Int :=
  let signed := Decimal.sign (s.toList.dropWhile isSpace)
  let front := match signed.2 with
    | '0' :: 'x' :: cs => (16, (digits 16 cs).1)
    | '0' :: 'X' :: cs => (16, (digits 16 cs).1)
    | cs => (10, (digits 10 cs).1)
  if front.2 = [] then none else finite (signed.1 * valueOf front.1 front.2)

def parseInt (v : JsVal) : Option (Option Int) := v.toStr.map parseText

/-- A loop `for (i = 0; i < v.length; i++)` over `v[i]`: the elements it reaches
and whether it ends at an element that is not there. -/
structure Loop where
  items : List JsVal
  broken : Bool

/-- The elements `"0"`, `"1"`, … of an object that claims a length. -/
def indexed (fields : List (String × JsVal)) (limit : ℚ) : Nat → Nat → Loop
  | 0, i => ⟨[], (i : ℚ) < limit⟩
  | fuel + 1, i =>
    if (i : ℚ) < limit then
      match fields.find? (fun f => f.1 = toString i) with
      | none => ⟨[], true⟩
      | some f => ⟨f.2 :: (indexed fields limit fuel (i + 1)).items,
          (indexed fields limit fuel (i + 1)).broken⟩
    else ⟨[], false⟩

/-- `none` when the first look at `length` throws. An object may claim a length
it does not have; the properties of the element that is missing throw. -/
def loop : JsVal → Option Loop
  | undefined => none
  | null => none
  | arr items => some ⟨items, false⟩
  | str s => some ⟨s.toList.map (fun c => str (String.singleton c)), false⟩
  | obj fields =>
    match ((obj fields).get "length").toNumber with
    | some (some limit) => some (indexed fields limit fields.length 0)
    | some none => some ⟨[], false⟩
    | none => none
  | _ => some ⟨[], false⟩

@[simp] theorem get_set (v : JsVal) (key : String) (w : JsVal) :
    (v.set key w).get key = w := by
  cases v <;> simp [set, get]

/-- A check of every field is a check of the one that is read. -/
theorem get_of_all {fields : List (String × JsVal)} {check : String × JsVal → Bool}
    (h : fields.all check = true) (key : String) :
    (obj fields).get key = undefined ∨ check (key, (obj fields).get key) = true := by
  simp only [get]
  cases hf : fields.find? (fun f => f.1 = key) with
  | none => exact Or.inl rfl
  | some f =>
    have name : f.1 = key := by simpa using List.find?_some hf
    have checked := List.all_eq_true.mp h f (List.mem_of_find?_eq_some hf)
    rw [← name]
    exact Or.inr checked

example : (arr [num 3, null, arr [str "x"]]).toStr = some "3,,x" := by decide
example : parseInt (str " -0x1fz") = some (some (-31)) := by decide +kernel
example : looseEq (str " 12 ") (num 12) = some true := by decide +kernel

end JsVal

end OneRoof
