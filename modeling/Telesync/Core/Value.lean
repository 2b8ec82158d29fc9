import Mathlib
set_option autoImplicit false

/-!
# Python values as `telesync/core.py` observes them

Source: `py/telesync/core.py`: the `isinstance`, truthiness and `str()` tests
that `_dump`, `_set_op`, `Ref` and `PageBase` make.

WHAT THIS FILE IS FOR.  A page's change log holds Python dicts built by `_set_op`,
`add`, `__delitem__` and `drop`, whose leaves are whatever the caller passed in.
`PyVal` is the part of the Python object graph the module can observe: the
JSON-like builtins, `Data` placeholders, and objects that do or do not expose a
callable `dump`.

WHAT IS ABSTRACTED.  A float is identified by its `repr` (`"1.5"`, `"nan"`,
`"-inf"`): `repr` is injective on floats and it is all that `json.dumps`, `str()`
and truthiness read.  A user `dump()` has a fixed outcome, the value it returns or
the exception it raises; a `dump()` that calls back into the page is outside the
model.  Any other object carries its class name and its truthiness (an empty
`set`, `frozenset`, `bytes` or `range` is falsy, as is an object whose `__len__`
or `__bool__` says so).  `Data.size` has the declared type `int`, which a `bool`
is an instance of (`PyInt`).  Dict keys are the hashable scalars, plus opaque
hashable objects that carry their class name and `str()`.

WHAT IS LEFT TO `Telesync.Protocol.Shared`.  A `PyVal` is a value: nothing in it can
change.  In Python a dict is an object that the caller may hold and pass again,
and `PageBase.add` renames the `Data` entries of its card dict in place; the
shared-dict layer models that.
-/

namespace Telesync

/-! ## `Except` as the model's raising computation -/

section ExceptLemmas

variable {ε α β : Type}

@[simp] theorem except_pure (a : α) : (pure a : Except ε α) = .ok a := rfl

@[simp] theorem except_throw (e : ε) : (throw e : Except ε α) = .error e := rfl

@[simp] theorem except_ok_bind (a : α) (f : α → Except ε β) : (Except.ok a >>= f) = f a := rfl

@[simp] theorem except_error_bind (e : ε) (f : α → Except ε β) :
    (Except.error e >>= f) = .error e := rfl

theorem except_bind_eq_ok {x : Except ε α} {f : α → Except ε β} {b : β} :
    x >>= f = .ok b ↔ ∃ a, x = .ok a ∧ f a = .ok b := by
  cases x <;> simp

theorem except_map_eq_ok {x : Except ε α} {f : α → β} {b : β} :
    f <$> x = .ok b ↔ ∃ a, x = .ok a ∧ f a = b := by
  cases x <;> simp

end ExceptLemmas

/-- An exception raised by a modelled call: its class and its message. -/
inductive PyErr where
  /-- `ValueError(msg)` -/
  | valueError (msg : String)
  /-- `KeyError(msg)` -/
  | keyError (msg : String)
  /-- `TypeError(msg)` -/
  | typeError (msg : String)
  /-- whatever a user `dump()` raises -/
  | raised (cls msg : String)
  deriving DecidableEq, Repr, Inhabited

/-- A hashable Python value used as a `dict` key. -/
inductive PyKey where
  | none
  | bool (b : Bool)
  | int (i : Int)
  | float (repr : String)
  | str (s : String)
  /-- any other hashable object (a tuple, a frozenset, ...): its class and `str()` -/
  | other (cls text : String)
  deriving DecidableEq, Repr, Inhabited

/-- A value of the declared type `int` of `Data.size`: an `int`, or a `bool`, which
Python counts as an `int` (`isinstance(True, int)`) but `json` writes as
`true` or `false`. -/
inductive PyInt where
  | int (i : Int)
  | bool (b : Bool)
  deriving DecidableEq, Repr, Inhabited

/-- A numeral is an `int`. -/
instance (n : Nat) : OfNat PyInt n := ⟨.int n⟩

/-- The number Python compares: `True == 1`, `False == 0`. -/
def PyInt.val : PyInt → Int
  | .int i => i
  | .bool b => if b then 1 else 0

/-- A Python value. -/
inductive PyVal where
  | none
  | bool (b : Bool)
  | int (i : Int)
  | float (repr : String)
  | str (s : String)
  | list (xs : List PyVal)
  | tuple (xs : List PyVal)
  /-- a `dict`, its entries in iteration order -/
  | dict (entries : List (PyKey × PyVal))
  /-- a `Data` placeholder: its `fields`, `size` and `data` attributes -/
  | data (fields : PyVal) (size : PyInt) (data : PyVal)
  /-- an object whose `dump()` returns `result`, with its truthiness -/
  | dumps (cls : String) (truthy : Bool) (result : PyVal)
  /-- an object whose `dump()` raises `err`, with its truthiness -/
  | dumpRaises (cls : String) (truthy : Bool) (err : PyErr)
  /-- any other object (a `set`, a `Ref`, an `Expando`, ...): no callable `dump`;
  its class and its truthiness -/
  | object (cls : String) (truthy : Bool)
  deriving Inhabited

/-- `size` as the value it is: an `int` or a `bool`. -/
def PyInt.toPyVal : PyInt → PyVal
  | .int i => .int i
  | .bool b => .bool b

/-- A Python `dict`: its entries in iteration order. -/
abbrev Dict := List (PyKey × PyVal)

/-! ## Keys -/

namespace PyKey

/-- `str(k)`, which the f-string `f'~{k}'` of `PageBase.add` applies to a key. -/
def pyStr : PyKey → String
  | .none => "None"
  | .bool b => if b then "True" else "False"
  | .int i => toString i
  | .float r => r
  | .str s => s
  | .other _ text => text

/-- The key is a `str` that begins with `~`, the prefix of a buffer marker. -/
def isMarker : PyKey → Bool
  | .str s => s.data.head? == some '~'
  | _ => false

end PyKey

/-! ## The `isinstance` and truthiness tests -/

namespace PyVal

/-- `isinstance(x, Data)` -/
def isData : PyVal → Bool
  | .data .. => true
  | _ => false

theorem isData_eq_true {v : PyVal} (h : v.isData = true) : ∃ f n d, v = .data f n d := by
  cases v <;> first | exact ⟨_, _, _, rfl⟩ | cases h

/-- Python truthiness, `bool(x)`; a `Data` has neither `__bool__` nor `__len__`
and is true, any other object is as it says. -/
def truthy : PyVal → Bool
  | .none => false
  | .bool b => b
  | .int i => i != 0
  | .float r => r != "0.0" && r != "-0.0"
  | .str s => s != ""
  | .list xs | .tuple xs => !xs.isEmpty
  | .dict d => !d.isEmpty
  | .data .. => true
  | .dumps _ t _ | .dumpRaises _ t _ | .object _ t => t

end PyVal

/-! ## Dict updates

`d[k] = v` and `del d[k]` on the ordered entry list.  Keys are compared
structurally; `PageBase.add` compares only `str` keys with `str` keys and a key
with itself, where that is Python's `==`. -/

namespace Dict

/-- `d[k] = v`: an existing key keeps its position, a new key goes last. -/
def setitem : Dict → PyKey → PyVal → Dict
  | [], k, v => [(k, v)]
  | (k', v') :: d, k, v => if k' = k then (k', v) :: d else (k', v') :: setitem d k v

/-- `del d[k]`: the entry of `k` is removed.  `PageBase.add` deletes only keys
that are present, so the `KeyError` of an absent key is not modelled. -/
def erase : Dict → PyKey → Dict
  | [], _ => []
  | (k', v') :: d, k => if k' = k then d else (k', v') :: erase d k

/-- The keys, in iteration order. -/
def keys (d : Dict) : List PyKey := d.map Prod.fst

@[simp] theorem setitem_nil (k : PyKey) (v : PyVal) : setitem [] k v = [(k, v)] := rfl

@[simp] theorem erase_nil (k : PyKey) : erase [] k = [] := rfl

@[simp] theorem keys_nil : keys [] = [] := rfl

@[simp] theorem keys_cons (k : PyKey) (v : PyVal) (d : Dict) :
    keys ((k, v) :: d) = k :: keys d := rfl

@[simp] theorem keys_append (d e : Dict) : keys (d ++ e) = keys d ++ keys e := by
  simp [keys]

/-- Assigning a key that is absent appends it. -/
theorem setitem_of_not_mem {d : Dict} {k : PyKey} (v : PyVal) (h : k ∉ keys d) :
    setitem d k v = d ++ [(k, v)] := by
  induction d with
  | nil => rfl
  | cons e d ih =>
    obtain ⟨k', v'⟩ := e
    simp only [keys_cons, List.mem_cons, not_or] at h
    simp [setitem, Ne.symm h.1, ih h.2]

/-- Deleting an absent key changes nothing. -/
theorem erase_of_not_mem {d : Dict} {k : PyKey} (h : k ∉ keys d) : erase d k = d := by
  induction d with
  | nil => rfl
  | cons e d ih =>
    obtain ⟨k', v'⟩ := e
    simp only [keys_cons, List.mem_cons, not_or] at h
    simp [erase, Ne.symm h.1, ih h.2]

/-- Looking up a key appended after every entry that lacks it finds the appended value. -/
theorem lookup_append_of_not_mem {d : Dict} {k : PyKey} (v : PyVal) (h : k ∉ keys d) :
    List.lookup k (d ++ [(k, v)]) = some v := by
  induction d with
  | nil => simp [List.lookup]
  | cons e d ih =>
    obtain ⟨k', v'⟩ := e
    simp only [keys_cons, List.mem_cons, not_or] at h
    have hne : (k == k') = false := beq_false_of_ne h.1
    simp [List.lookup, hne, ih h.2]

/-- Deleting the head's key removes exactly the head. -/
@[simp] theorem erase_cons_self (k : PyKey) (v : PyVal) (d : Dict) :
    erase ((k, v) :: d) k = d := by
  simp [erase]

end Dict

end Telesync
