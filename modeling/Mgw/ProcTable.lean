import Mathlib.Data.List.Nodup
import Mgw.DataItems
import Mgw.KeyedHistory
import Mgw.TransitionRuns

/-!
# The procedure table

`callback-handle.c`. An entry answers to every name that its own name begins with, and to
its function; the removal and the call of a name pass no function. Functions are compared
by their addresses.
-/

namespace Mgw.ProcTable

open DataItems KeyedHistory TransitionRuns

set_option autoImplicit false

structure CallData (Func : Type*) where
  name : Name
  cb_proc_func : Func

/-- `opaque_ptr` is the member `opaque`. -/
structure ProcHandler (Func Opaque : Type*) where
  opaque_ptr : Opaque
  proc_functions : List (CallData Func)

/-- `strncmp(stored, name, strlen(name)) == 0`. -/
def strncmpSame (stored name : Name) : Bool :=
  stored.bytes.take name.bytes.length = name.bytes

/-- What `proc_handler_do` comes to: a code of its own, or a call. -/
inductive Answer (Func Opaque Params : Type*) where
  | returned (code : Int)
  | called (func : Func) (opaque_ptr : Opaque) (params : Params)
  deriving DecidableEq

inductive Call (Func : Type*) where
  | add (name : Option Name) (func : Option Func)
  | remove (name : Option Name)

variable {Func Opaque Params : Type*}

def procHandlerCreate (opaque_ptr : Opaque) : ProcHandler Func Opaque where
  opaque_ptr := opaque_ptr
  proc_functions := []

section Functions

variable [DecidableEq Func]

/-- The test of `get_proc_data` and `get_proc_data_idx`. -/
def answersTo (name : Name) (func : Option Func) (data : CallData Func) : Bool :=
  strncmpSame data.name name || func = some data.cb_proc_func

variable (handler : ProcHandler Func Opaque)

def getProcData (name : Name) (func : Option Func) : Option (CallData Func) :=
  handler.proc_functions.find? (answersTo name func)

def getProcDataIdx (name : Name) (func : Option Func) : Option Nat :=
  handler.proc_functions.findIdx? (answersTo name func)

def procHandlerAdd (name : Option Name) (func : Option Func) : Bool × ProcHandler Func Opaque :=
  match name, func with
  | some name, some func =>
      match getProcData handler name (some func) with
      | some _ => (true, handler)
      | none =>
          (true, { handler with
            proc_functions := handler.proc_functions ++ [⟨name, func⟩] })
  | _, _ => (false, handler)

def procHandlerRemove (name : Option Name) : ProcHandler Func Opaque :=
  match name.bind fun name => getProcDataIdx handler name none with
  | none => handler
  | some idx => { handler with proc_functions := handler.proc_functions.eraseIdx idx }

def procHandlerDo (name : Option Name) (params : Params) : Answer Func Opaque Params :=
  match name.bind fun name => getProcData handler name none with
  | none => .returned (-1)
  | some data => .called data.cb_proc_func handler.opaque_ptr params

def next : Call Func → ProcHandler Func Opaque
  | .add name func => (procHandlerAdd handler name func).2
  | .remove name => procHandlerRemove handler name

end Functions

section Map

def adds : Call Func → Name → Option Func
  | .add (some added) (some func), name => if added = name then some func else none
  | _, _ => none

def removes : Call Func → Name → Bool
  | .remove (some removed), name => removed = name
  | _, _ => false

/-- The function of the first addition of exactly this name since its last removal. -/
def registered (history : List (Call Func)) (name : Name) : Option Func :=
  firstSince adds removes history name

def answer (history : List (Call Func)) (opaque_ptr : Opaque) (name : Name) (params : Params) :
    Answer Func Opaque Params :=
  match registered history name with
  | none => .returned (-1)
  | some func => .called func opaque_ptr params

def entryNamed (handler : ProcHandler Func Opaque) (name : Name) : Option (CallData Func) :=
  handler.proc_functions.find? fun data => data.name = name

/-- The table holds what was registered, under each name. -/
def Agrees (handler : ProcHandler Func Opaque) (history : List (Call Func)) : Prop :=
  ∀ name, (entryNamed handler name).map CallData.cb_proc_func = registered history name

variable [DecidableEq Func] (handler : ProcHandler Func Opaque)

/-- The first entry that answers to the name has this name. -/
def Exact (name : Name) : Prop := ∀ data ∈ getProcData handler name none, data.name = name

/-- An added name has an entry already, or nothing answers to it and to its function; the
first entry that answers to a removed name has this name. -/
def Keeps : Call Func → Prop
  | .add (some name) (some func) =>
      (∃ data ∈ handler.proc_functions, data.name = name) ∨
        getProcData handler name (some func) = none
  | .add _ _ => True
  | .remove (some name) => Exact handler name
  | .remove none => True

instance exact_decidable (name : Name) : Decidable (Exact handler name) :=
  inferInstanceAs (Decidable (∀ data ∈ getProcData handler name none, data.name = name))

instance keeps_decidable : (call : Call Func) → Decidable (Keeps handler call)
  | .add (some name) (some func) =>
      decidable_of_iff
        ((∃ data ∈ handler.proc_functions, data.name = name) ∨
          (getProcData handler name (some func)).isNone)
        (or_congr_right Option.isNone_iff_eq_none)
  | .add none _ => inferInstanceAs (Decidable True)
  | .add (some _) none => inferInstanceAs (Decidable True)
  | .remove (some name) => exact_decidable handler name
  | .remove none => inferInstanceAs (Decidable True)

end Map

/-- No name and no function is there twice. -/
structure Distinct (handler : ProcHandler Func Opaque) : Prop where
  names : (handler.proc_functions.map CallData.name).Nodup
  functions : (handler.proc_functions.map CallData.cb_proc_func).Nodup

section Lookup

variable {table : List (CallData Func)} {name : Name} {data : CallData Func}

theorem strncmp_same_self (name : Name) : strncmpSame name name = true :=
  decide_eq_true List.take_length

theorem find_named (distinct : (table.map CallData.name).Nodup) (member : data ∈ table) :
    (table.find? fun other => other.name = data.name) = some data := by
  induction table with
  | nil => exact absurd member List.not_mem_nil
  | cons first rest ih =>
      obtain ⟨fresh, later⟩ := List.nodup_cons.mp distinct
      rw [List.find?_cons]
      rcases List.mem_cons.mp member with same | further
      · rw [same, decide_eq_true rfl]
      · have different : first.name ≠ data.name := by
          intro same
          apply fresh
          rw [same]
          exact List.mem_map_of_mem further
        rw [decide_eq_false different]
        exact ih later further

theorem find_absent :
    (table.find? fun data => data.name = name) = none ↔ ∀ data ∈ table, data.name ≠ name := by
  rw [List.find?_eq_none]
  constructor
  · intro missing data member same
    exact missing data member (decide_eq_true same)
  · intro missing data member same
    exact missing data member (of_decide_eq_true same)

/-- The first entry that passes the test, and the table without it. -/
theorem find_idx_parts {test : CallData Func → Bool} {idx : Nat}
    (found : table.findIdx? test = some idx) :
    ∃ left data right, table = left ++ data :: right ∧ table.eraseIdx idx = left ++ right ∧
      table.find? test = some data := by
  induction table generalizing idx with
  | nil => exact absurd found nofun
  | cons first rest ih =>
      rw [List.findIdx?_cons] at found
      cases passes : test first with
      | true =>
          rw [passes, if_pos rfl] at found
          refine ⟨[], first, rest, rfl, ?_, List.find?_cons_of_pos passes⟩
          rw [← Option.some.inj found]
          rfl
      | false =>
          rw [passes, if_neg Bool.false_ne_true] at found
          obtain ⟨before, later, same⟩ := Option.map_eq_some_iff.mp found
          obtain ⟨left, data, right, parts, erased, first_found⟩ := ih later
          refine ⟨first :: left, data, right, ?_, ?_, ?_⟩
          · rw [parts, List.cons_append]
          · rw [← same, List.eraseIdx_cons_succ, erased, List.cons_append]
          · rw [List.find?_cons_of_neg (by rw [passes]; exact Bool.false_ne_true), first_found]

theorem find_without {left right : List (CallData Func)}
    (distinct : ((left ++ data :: right).map CallData.name).Nodup) (name : Name) :
    ((left ++ right).find? fun other => other.name = name) =
      if data.name = name then none
      else (left ++ data :: right).find? fun other => other.name = name := by
  split_ifs with same
  · rw [List.map_append, List.map_cons, List.nodup_middle, List.nodup_cons,
      ← List.map_append] at distinct
    apply find_absent.mpr
    intro other member named
    apply distinct.1
    rw [same, ← named]
    exact List.mem_map_of_mem member
  · rw [List.find?_append, List.find?_append, List.find?_cons, decide_eq_false same]

end Lookup

section Entries

variable {handler : ProcHandler Func Opaque} {history : List (Call Func)} {name : Name}
  {func : Func} {data : CallData Func}

theorem entry_member (distinct : Distinct handler) (member : data ∈ handler.proc_functions) :
    entryNamed handler data.name = some data :=
  find_named distinct.names member

theorem entry_name (found : entryNamed handler name = some data) :
    data ∈ handler.proc_functions ∧ data.name = name := by
  unfold entryNamed at found
  have holds := List.find?_some found
  exact ⟨List.mem_of_find?_eq_some found, of_decide_eq_true holds⟩

/-- A registered name has an entry with its function. -/
theorem registered_entry (agrees : Agrees handler history) (known : registered history name = some func) :
    ∃ data ∈ handler.proc_functions, data.name = name ∧ data.cb_proc_func = func := by
  obtain ⟨data, found, same⟩ := Option.map_eq_some_iff.mp ((agrees name).trans known)
  obtain ⟨member, named⟩ := entry_name found
  exact ⟨data, member, named, same⟩

theorem distinct_function (distinct : Distinct handler) {other : CallData Func}
    (member : data ∈ handler.proc_functions) (member' : other ∈ handler.proc_functions)
    (same : data.cb_proc_func = other.cb_proc_func) : data = other :=
  List.inj_on_of_nodup_map distinct.functions member member' same

theorem registered_add (added name : Name) (func : Func) :
    registered (history ++ [.add (some added) (some func)]) name =
      (registered history name).or (if added = name then some func else none) :=
  first_since_append adds removes history _ name

theorem registered_remove (removed name : Name) :
    registered (history ++ [.remove (some removed)]) name =
      if removed = name then none else registered history name := by
  refine (first_since_append adds removes history _ name).trans ?_
  unfold removes adds
  dsimp only
  split_ifs with same other other
  · rfl
  · exact absurd (of_decide_eq_true same) other
  · exact absurd (decide_eq_true other) same
  · rw [Option.or_none]
    rfl

/-- A call with a null pointer leaves the table and what is registered. -/
theorem registered_null (history : List (Call Func)) {call : Call Func}
    (nothing : ∀ name, adds call name = none ∧ removes call name = false) (name : Name) :
    registered (history ++ [call]) name = registered history name := by
  refine (first_since_append adds removes history call name).trans ?_
  rw [(nothing name).1, (nothing name).2, if_neg Bool.false_ne_true, Option.or_none]
  rfl

theorem entry_append (added : CallData Func) (name : Name) :
    entryNamed { handler with proc_functions := handler.proc_functions ++ [added] } name =
      (entryNamed handler name).or (if added.name = name then some added else none) := by
  unfold entryNamed
  rw [List.find?_append, List.find?_singleton]
  by_cases same : added.name = name
  · rw [decide_eq_true same, if_pos rfl, if_pos same]
  · rw [decide_eq_false same, if_neg Bool.false_ne_true, if_neg same]

end Entries

section Steps

variable [DecidableEq Func] {handler : ProcHandler Func Opaque} {history : List (Call Func)}
  {name : Name} {func : Func} {data : CallData Func}

theorem answers_to_named {func : Option Func} (same : data.name = name) :
    answersTo name func data = true := by
  unfold answersTo
  rw [same, strncmp_same_self, Bool.true_or]

/-- Where nothing answers to a name nothing has it. -/
theorem unanswered_absent {func : Option Func} (missing : getProcData handler name func = none) :
    entryNamed handler name = none := by
  apply find_absent.mpr
  intro data member same
  exact List.find?_eq_none.mp missing data member (answers_to_named same)

/-- The call of a name does what was registered exactly where the first entry that answers
has that name. -/
theorem do_right_iff (distinct : Distinct handler) (agrees : Agrees handler history)
    (name : Name) (params : Params) :
    procHandlerDo handler (some name) params = answer history handler.opaque_ptr name params ↔
      Exact handler name := by
  unfold procHandlerDo answer Exact
  rw [Option.bind_some]
  cases found : getProcData handler name none with
  | none =>
      have unknown := agrees name
      rw [unanswered_absent found] at unknown
      rw [← unknown]
      exact ⟨fun _ => nofun, fun _ => rfl⟩
  | some data =>
      have member := List.mem_of_find?_eq_some found
      constructor
      · intro right other same
        rw [← Option.some.inj same]
        cases known : registered history name with
        | none =>
            rw [known] at right
            contradiction
        | some func =>
            rw [known] at right
            obtain ⟨entry, there, named, called⟩ := registered_entry agrees known
            injection right with sameFunc
            rw [distinct_function distinct member there (sameFunc.trans called.symm)]
            exact named
      · intro exact
        have named := exact data rfl
        have known := agrees name
        rw [← named, entry_member distinct member, named] at known
        rw [← known]
        rfl

theorem add_agrees_iff (agrees : Agrees handler history) (name : Name) (func : Func) :
    Agrees (next handler (.add (some name) (some func)))
        (history ++ [.add (some name) (some func)]) ↔
      Keeps handler (.add (some name) (some func)) := by
  unfold next procHandlerAdd Keeps
  dsimp only
  cases found : getProcData handler name (some func) with
  | none =>
      refine ⟨fun _ => Or.inr rfl, fun _ other => ?_⟩
      dsimp only
      rw [entry_append, registered_add, ← agrees other]
      cases entryNamed handler other with
      | some data => rfl
      | none =>
          rw [Option.none_or, Option.map_none, Option.none_or]
          split_ifs <;> rfl
  | some data =>
      dsimp only
      constructor
      · intro after
        have known := after name
        rw [registered_add, if_pos rfl] at known
        cases entry : entryNamed handler name with
        | none =>
            rw [entry] at known
            cases held : registered history name with
            | none =>
                rw [held] at known
                contradiction
            | some func =>
                rw [held] at known
                contradiction
        | some data =>
            obtain ⟨member, named⟩ := entry_name entry
            exact Or.inl ⟨data, member, named⟩
      · intro keeps other
        obtain ⟨present, member, named⟩ := keeps.resolve_right nofun
        rw [registered_add, agrees other]
        split_ifs with same
        · cases held : registered history other with
          | some func => rfl
          | none =>
              have absent := agrees other
              rw [held, Option.map_eq_none_iff] at absent
              exact absurd (named.trans same) (find_absent.mp absent present member)
        · rw [Option.or_none]

theorem remove_agrees_iff (distinct : Distinct handler) (agrees : Agrees handler history)
    (name : Name) :
    Agrees (next handler (.remove (some name))) (history ++ [.remove (some name)]) ↔
      Keeps handler (.remove (some name)) := by
  unfold next procHandlerRemove Keeps Exact getProcData
  dsimp only
  rw [Option.bind_some]
  cases found : getProcDataIdx handler name none with
  | none =>
      have missing : handler.proc_functions.find? (answersTo name none) = none := by
        rw [List.find?_eq_none]
        intro data member
        rw [List.findIdx?_eq_none_iff.mp found data member]
        exact Bool.false_ne_true
      rw [missing]
      refine ⟨fun _ => nofun, fun _ other => ?_⟩
      rw [registered_remove]
      split_ifs with same
      · rw [← same, unanswered_absent missing]
        rfl
      · exact agrees other
  | some idx =>
      obtain ⟨left, data, right, parts, erased, first⟩ := find_idx_parts found
      have names := distinct.names
      rw [parts] at names
      have without := find_without names
      rw [← parts, ← erased] at without
      have member := List.mem_of_find?_eq_some first
      constructor
      · intro after other same
        rw [first] at same
        rw [← Option.some.inj same]
        by_contra different
        have known := after data.name
        rw [registered_remove, if_neg (Ne.symm different), ← agrees data.name,
          entry_member distinct member] at known
        unfold entryNamed at known
        dsimp only at known
        rw [without, if_pos rfl] at known
        contradiction
      · intro exact other
        have named := exact data first
        rw [registered_remove, ← agrees other, ← named]
        unfold entryNamed
        dsimp only
        rw [without]
        split_ifs <;> rfl

end Steps

section Runs

variable [DecidableEq Func]

/-- What a call can do with the table. -/
theorem next_cases (handler : ProcHandler Func Opaque) (call : Call Func) :
    next handler call = handler ∨
    (∃ name func, call = .add (some name) (some func) ∧
      getProcData handler name (some func) = none ∧
      next handler call =
        { handler with proc_functions := handler.proc_functions ++ [⟨name, func⟩] }) ∨
    (∃ idx, next handler call =
        { handler with proc_functions := handler.proc_functions.eraseIdx idx }) := by
  cases call with
  | add name func =>
      unfold next procHandlerAdd
      cases name with
      | none => exact Or.inl rfl
      | some name =>
          cases func with
          | none => exact Or.inl rfl
          | some func =>
              dsimp only
              cases found : getProcData handler name (some func) with
              | some data => exact Or.inl rfl
              | none => exact Or.inr (Or.inl ⟨name, func, rfl, found, rfl⟩)
  | remove name =>
      unfold next procHandlerRemove
      dsimp only
      cases name.bind fun name => getProcDataIdx handler name none with
      | none => exact Or.inl rfl
      | some idx => exact Or.inr (Or.inr ⟨idx, rfl⟩)

theorem next_same_pointer (handler : ProcHandler Func Opaque) (call : Call Func) :
    (next handler call).opaque_ptr = handler.opaque_ptr := by
  obtain same | ⟨name, func, -, -, same⟩ | ⟨idx, same⟩ := next_cases handler call
  all_goals rw [same]

theorem distinct_next {handler : ProcHandler Func Opaque} (distinct : Distinct handler)
    (call : Call Func) : Distinct (next handler call) := by
  obtain same | ⟨name, func, -, missing, same⟩ | ⟨idx, same⟩ := next_cases handler call
  · rw [same]
    exact distinct
  · rw [same]
    have unlike := List.find?_eq_none.mp missing
    constructor
    · rw [List.map_append, List.map_singleton, List.nodup_append_comm, List.singleton_append,
        List.nodup_cons]
      refine ⟨fun known => ?_, distinct.names⟩
      obtain ⟨data, member, named⟩ := List.mem_map.mp known
      exact unlike data member (answers_to_named named)
    · rw [List.map_append, List.map_singleton, List.nodup_append_comm, List.singleton_append,
        List.nodup_cons]
      refine ⟨fun known => ?_, distinct.functions⟩
      obtain ⟨data, member, called⟩ := List.mem_map.mp known
      apply unlike data member
      unfold answersTo
      rw [called, decide_eq_true rfl, Bool.or_true]
  · rw [same]
    have fewer := List.eraseIdx_sublist handler.proc_functions idx
    exact ⟨distinct.names.sublist (fewer.map _), distinct.functions.sublist (fewer.map _)⟩

/-- A call with a null pointer leaves the table and what is registered. -/
theorem null_agrees {handler : ProcHandler Func Opaque} {history : List (Call Func)}
    (agrees : Agrees handler history) {call : Call Func} (same : next handler call = handler)
    (nothing : ∀ name, adds call name = none ∧ removes call name = false) :
    Agrees (next handler call) (history ++ [call]) := by
  intro name
  rw [same, registered_null history nothing]
  exact agrees name

theorem step_agrees_iff {handler : ProcHandler Func Opaque} {history : List (Call Func)}
    (distinct : Distinct handler) (agrees : Agrees handler history) (call : Call Func) :
    Agrees (next handler call) (history ++ [call]) ↔ Keeps handler call := by
  cases call with
  | add name func =>
      cases name with
      | none => exact iff_of_true (null_agrees agrees rfl fun _ => ⟨rfl, rfl⟩) trivial
      | some name =>
          cases func with
          | none => exact iff_of_true (null_agrees agrees rfl fun _ => ⟨rfl, rfl⟩) trivial
          | some func => exact add_agrees_iff agrees name func
  | remove name =>
      cases name with
      | none => exact iff_of_true (null_agrees agrees rfl fun _ => ⟨rfl, rfl⟩) trivial
      | some name => exact remove_agrees_iff distinct agrees name

/-- What calls that all keep to the condition leave behind. -/
theorem agrees_after (opaque_ptr : Opaque) (calls : List (Call Func))
    (meets : Meets next Keeps (procHandlerCreate opaque_ptr) calls) :
    Distinct (run next (procHandlerCreate opaque_ptr) calls) ∧
      Agrees (run next (procHandlerCreate opaque_ptr) calls) calls ∧
      (run next (procHandlerCreate opaque_ptr) calls).opaque_ptr = opaque_ptr := by
  induction calls using List.reverseRecOn with
  | nil => exact ⟨⟨List.nodup_nil, List.nodup_nil⟩, fun _ => rfl, rfl⟩
  | append_singleton calls call ih =>
      obtain ⟨before, last⟩ := (meets_append calls [call] _).mp meets
      obtain ⟨distinct, agrees, same⟩ := ih before
      rw [run_append, run_cons, run_nil]
      refine ⟨distinct_next distinct call, ?_, (next_same_pointer _ call).trans same⟩
      exact (step_agrees_iff distinct agrees call).mpr last.1

/-- After calls that keep to the condition the table holds what was registered; a call of a
name then does what was registered, and the next addition or removal keeps the table so,
exactly where the condition holds. -/
theorem table_is_map (opaque_ptr : Opaque) (calls : List (Call Func))
    (meets : Meets next Keeps (procHandlerCreate opaque_ptr) calls) :
    let handler := run next (procHandlerCreate opaque_ptr) calls
    Agrees handler calls ∧
      (∀ (name : Name) (params : Params),
        procHandlerDo handler (some name) params = answer calls opaque_ptr name params ↔
          Exact handler name) ∧
      ∀ call, Agrees (next handler call) (calls ++ [call]) ↔ Keeps handler call := by
  obtain ⟨distinct, agrees, same⟩ := agrees_after opaque_ptr calls meets
  refine ⟨agrees, fun name params => ?_, step_agrees_iff distinct agrees⟩
  have right := do_right_iff distinct agrees name params
  rw [same] at right
  exact right

end Runs

def longer : Name := ⟨[97, 98], by decide⟩

def shorter : Name := ⟨[97], by decide⟩

/-- A name is added before the longer ones that begin with it, and the longer one is removed. -/
theorem table_is_map_shorter_first :
    let calls : List (Call UInt64) :=
      [.add (some shorter) (some 1), .add (some longer) (some 2), .add none (some 3),
        .add (some longer) (some 4), .remove (some longer)]
    let handler := run next (procHandlerCreate ()) calls
    Agrees handler calls ∧
      (∀ (name : Name) (params : Unit),
        procHandlerDo handler (some name) params = answer calls () name params ↔
          Exact handler name) ∧
      ∀ call, Agrees (next handler call) (calls ++ [call]) ↔ Keeps handler call :=
  table_is_map () _ (by decide)

/-- After the longer name the shorter one is not added, and its call goes to the function of
the longer one; its removal takes the longer one out; a function is not added under a second
name. -/
theorem shorter_name_mistaken :
    let created : ProcHandler UInt64 Unit := procHandlerCreate ()
    let added := next created (.add (some longer) (some 1))
    (procHandlerAdd added (some shorter) (some 2)).1 = true ∧
      procHandlerDo (next added (.add (some shorter) (some 2))) (some shorter) () =
        .called 1 () () ∧
      answer [.add (some longer) (some 1), .add (some shorter) (some 2)] () shorter () =
        .called (2 : UInt64) () () ∧
      procHandlerDo (next added (.remove (some shorter))) (some longer) () = .returned (-1) ∧
      answer [.add (some longer) (some 1), .remove (some shorter)] () longer () =
        .called (1 : UInt64) () () ∧
      procHandlerDo (next added (.add (some ⟨[99], by decide⟩) (some 1))) (some ⟨[99], by decide⟩)
        () = .returned (-1) ∧
      ¬∀ (calls : List (Call UInt64)) (name : Name),
        procHandlerDo (run next created calls) (some name) () = answer calls () name () := by
  refine ⟨by decide, by decide, by decide, by decide, by decide, by decide, fun claimed => ?_⟩
  have mistaken := claimed [.add (some longer) (some 1), .remove (some shorter)] longer
  exact absurd mistaken (by decide)

end Mgw.ProcTable
