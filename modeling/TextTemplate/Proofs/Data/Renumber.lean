import TextTemplate.Function.Builtin
import TextTemplate.Proofs.Data.Session
import TextTemplate.Proofs.Store.Renumber

/-! Data whose overlays are numbered higher, because other overlays were made before. Reading them
gives the same, and writing the same to them leaves them so. Functions that know data only by what
they are given do not tell them apart either. -/

namespace TextTemplate

def Argument.renumber (k : Nat) : Argument → Argument
  | .literal text => .literal text
  | .datum path v => .datum path (v.map (Value.renumber k))
  | .null => .null

namespace Data

/-- The second data are the first, with `k` overlays made before. -/
structure Above (k : Nat) (d d' : Data) : Prop where
  store : Store.Above k d.store d'.store
  scope : d'.scope = d.scope.renumber k

/-- Data without overlays are the same in every store. -/
theorem above_of_reach {s : Scope} (hs : s.reach = 0) (st : Store) :
    Above st.size ⟨.empty, s⟩ ⟨st, s⟩ := by
  refine ⟨Store.above_empty st, (Value.scope_renumber_eq_self s fun hpos => ?_).symm⟩
  rw [hs] at hpos
  cases hpos

namespace Above
variable {k : Nat} {d d' : Data} (h : Above k d d')
include h

theorem get? (p : DataPath) : d'.get? p = (d.get? p).map (Value.renumber k) := by
  rw [Data.get?, Data.get?, Store.resolve, Store.resolve, h.scope]
  exact Store.follow_renumber h.store.get? d.scope p.segments

theorem getLocal? (p : DataPath) : d'.getLocal? p = (d.getLocal? p).map (Value.renumber k) := by
  rw [Data.getLocal?, Data.getLocal?, Store.resolveLocal, Store.resolveLocal, h.scope]
  exact Store.follow_renumber h.store.local? d.scope p.segments

theorem get (p : DataPath) : d'.get p = (d.get p).renumber k := by
  rw [Data.get, Data.get, h.get? p]
  cases d.get? p <;> rfl

theorem toJson : d'.toJson = d.toJson := by
  rw [Data.toJson, Data.toJson, h.scope]
  exact h.store.toJson (.scope d.scope)

theorem child (v : Value) : Above k (d.child v) (d'.child (v.renumber k)) :=
  ⟨h.store, by rw [Data.child, Data.child, h.scope, Value.toScope_renumber]⟩

theorem turn (v : Value) (index size : Nat) :
    Above k (d.turn v index size) (d'.turn (v.renumber k) index size) := by
  refine ⟨h.store, ?_⟩
  cases v <;> simp only [Data.turn, h.scope, Value.renumber, Scope.renumber]

theorem writable : d'.writable.1 = d.writable.1 + k ∧ Above k d.writable.2 d'.writable.2 := by
  rcases writable_cases d with ⟨id, hscope, hw⟩ | ⟨hplain, hw⟩
  · have hscope' : d'.scope = .overlay (id + k) := by rw [h.scope, hscope]; rfl
    rcases writable_cases d' with ⟨id', hid', hw'⟩ | ⟨hplain', -⟩
    · rw [hscope'] at hid'
      cases hid'
      rw [hw, hw']
      exact ⟨rfl, h⟩
    · exact absurd hscope' (hplain' _)
  · rcases writable_cases d' with ⟨id', hid', -⟩ | ⟨-, hw'⟩
    · obtain ⟨id, hid⟩ := Scope.eq_overlay_of_renumber (h.scope.symm.trans hid')
      exact absurd hid (hplain id)
    · obtain ⟨hid, hpush⟩ := h.store.push (.delegate d.scope)
      rw [Base.renumber, ← h.scope] at hid hpush
      rw [hw, hw']
      refine ⟨hid, hpush, ?_⟩
      rw [Scope.renumber, h.store.size]

theorem write (v : Value) (names : List String) :
    Above k ⟨d.writable.2.store.write d.writable.1 v names, .overlay d.writable.1⟩
      ⟨d'.writable.2.store.write d'.writable.1 (v.renumber k) names,
        .overlay d'.writable.1⟩ := by
  obtain ⟨hid, hwritable⟩ := h.writable
  rw [hid]
  exact ⟨hwritable.store.write d.writable.1 v names, rfl⟩

theorem put (p : DataPath) (v : Value) : Above k (d.put p v) (d'.put p (v.renumber k)) := by
  rw [put_eq, put_eq]
  exact h.write v p.segments

theorem bind (parameter : Parameter) : parameter.bind d' = (parameter.bind d).renumber k := by
  cases parameter with
  | datum path => rw [Parameter.bind, Parameter.bind, h.get?]; rfl
  | literal | null => rfl

end Above

/-- All that can be asked of data answers as before. -/
structure Unchanged (d after : Data) : Prop where
  scope : after.scope = d.scope
  get? : ∀ p, after.get? p = d.get? p
  getLocal? : ∀ p, after.getLocal? p = d.getLocal? p
  toJson : after.toJson = d.toJson

/-- Nothing that is done to a store changes data without overlays. -/
theorem unchanged_of_reach {d : Data} (hd : d.scope.reach = 0) (st : Store) :
    Unchanged d ⟨st, d.scope⟩ := by
  have hsame : ∀ {look : Scope → String → Option Value} {k : Nat} {names : List String},
      (∀ s name v, s.reach ≤ 0 → look s name = some v → v.reach ≤ 0) →
      (Store.follow look d.scope names).map (Value.renumber k) =
        Store.follow look d.scope names := by
    intro look k names hlook
    cases hv : Store.follow look d.scope names with
    | none => rfl
    | some v =>
      have hreach := Store.reach_of_follow hlook (Nat.le_of_eq hd) hv
      rw [Option.map_some, Value.renumber_eq_self v fun hpos => by omega]
  have hget : ∀ st p, Data.get? ⟨st, d.scope⟩ p = Data.get? ⟨.empty, d.scope⟩ p := fun st p =>
    ((above_of_reach hd st).get? p).trans
      (hsame fun _ _ _ hs => Store.sound_empty.reach_get? hs)
  have hlocal : ∀ st p, Data.getLocal? ⟨st, d.scope⟩ p = Data.getLocal? ⟨.empty, d.scope⟩ p :=
    fun st p => ((above_of_reach hd st).getLocal? p).trans
      (hsame fun _ _ _ hs => Store.sound_empty.reach_local? hs)
  have hjson : ∀ st, Data.toJson ⟨st, d.scope⟩ = Data.toJson ⟨.empty, d.scope⟩ := fun st =>
    (above_of_reach hd st).toJson
  exact ⟨rfl, fun p => (hget st p).trans (hget d.store p).symm,
    fun p => (hlocal st p).trans (hlocal d.store p).symm, (hjson st).trans (hjson d.store).symm⟩

end Data

namespace Function
variable {k : Nat}

/-- A function that knows data only by what it is given: from data whose overlays are numbered
higher it gives the same value, and writes the same. So it reaches no overlay in any other way. -/
def Confined (f : Function) : Prop :=
  ∀ ⦃k d d'⦄, Data.Above k d d' → ∀ args,
    ((f (args.map (Argument.renumber k))).run.run d').1 =
      ((f args).run.run d).1.map (Value.renumber k) ∧
    Data.Above k ((f args).run.run d).2 ((f (args.map (Argument.renumber k))).run.run d').2

theorem confined_reading {f : Store → List Argument → Except FunctionError Value}
    (hf : ∀ {k st st'}, Store.Above k st st' → ∀ args,
      f st' (args.map (Argument.renumber k)) = (f st args).map (Value.renumber k)) :
    (reading f).Confined := by
  intro k d d' h args
  have hrun : ∀ (d : Data) args, (reading f args).run.run d = (f d.store args, d) := by
    intro d args
    change (liftM (f d.store args) : Call Value).run.run d = _
    cases f d.store args <;> rfl
  rw [hrun, hrun]
  exact ⟨hf h.store args, h⟩

theorem value_renumber (a : Argument) : (a.renumber k).value = a.value.renumber k := by
  cases a with
  | datum path v => cases v <;> rfl
  | literal | null => rfl

theorem compare_renumber {st st' : Store} (h : Store.Above k st st') (a b : Argument) :
    (a.renumber k).compare st' (b.renumber k) = a.compare st b := by
  simp only [Argument.compare, Argument.isNull, value_renumber, Value.isNull_renumber,
    Value.asDecimal?_renumber, h.text]

/-- A function of one argument is as the function of the argument. -/
theorem unary_renumber {f f' : Argument → Except FunctionError Value}
    (h : ∀ a : Argument, f' (a.renumber k) = (f a).map (Value.renumber k)) (args : List Argument) :
    unary f' (args.map (Argument.renumber k)) = (unary f args).map (Value.renumber k) := by
  match args with
  | [a] => exact h a
  | [] => rfl
  | _ :: _ :: rest =>
    simp only [unary, List.map_cons, List.length_cons, List.length_map]
    rfl

theorem length?_renumber {st st' : Store} (h : Store.Above k st st') (v : Value) :
    length? st' (v.renumber k) = length? st v := by
  cases v with
  | map fields => exact congrArg some (Value.length_renumberFields fields)
  | list items => exact congrArg some (h.length (.list items))
  | entries pairs => exact congrArg some (h.length (.pairs pairs))
  | scope s =>
    have hsequence : st'.sequence (.scope (s.renumber k)) = (st.sequence (.scope s)).renumber k :=
      h.sequence (.scope s)
    simp only [length?, Value.renumber, hsequence]
    cases hq : st.sequence (.scope s) with
    | single v => rfl
    | _ => exact congrArg some (h.length _)
  | null | text | bool | int | float | entry | date | object | collection | function => rfl

theorem confined_comparing (holds : Ordering → Bool) : (reading (comparing holds)).Confined := by
  refine confined_reading fun h args => ?_
  match args with
  | [a, b] => exact congrArg (Except.ok <| Value.bool <| holds ·) (compare_renumber h a b)
  | [] | [_] => rfl
  | _ :: _ :: _ :: rest =>
    simp only [comparing, List.map_cons, List.length_cons, List.length_map]
    rfl

/-- What is done only for some numbers of arguments. -/
theorem checked_renumber {x x' : Except FunctionError Value} (arity : Arity)
    (args : List Argument) (h : x' = x.map (Value.renumber k)) :
    (do checkArity arity (args.map (Argument.renumber k)); x') =
      (do checkArity arity args; x).map (Value.renumber k) := by
  rw [checkArity, checkArity, List.length_map, h]
  split <;> rfl

theorem count_renumber (args : List Argument) (i : Nat) :
    PageIndex.count (args.map (Argument.renumber k)) i = PageIndex.count args i := by
  have hargument : (args.map (Argument.renumber k))[i]?.bind (fun a => a.value.asInt?) =
      args[i]?.bind fun a => a.value.asInt? := by
    rw [List.getElem?_map, Option.bind_map]
    simp only [Function.comp_def, value_renumber, Value.asInt?_renumber]
  simp only [PageIndex.count, hargument]

theorem page_renumber (pageSize : Nat) (args : List Argument) :
    PageIndex.call pageSize (args.map (Argument.renumber k)) =
      (PageIndex.call pageSize args).map (Value.renumber k) := by
  refine checked_renumber _ args ?_
  have hgiven :
      (args.map (Argument.renumber k))[2]?.any (!·.isNull) = args[2]?.any (!·.isNull) := by
    rw [List.getElem?_map, Option.any_map]
    simp only [Argument.isNull, value_renumber, Value.isNull_renumber]
  have hvalue : ∀ p : PageIndex, p.toValue.renumber k = p.toValue := fun p => by
    simp [PageIndex.toValue, Value.renumber, Value.renumberFields]
  rw [count_renumber, count_renumber, count_renumber, hgiven]
  cases PageIndex.count args 0 with
  | error e => rfl
  | ok index =>
    cases PageIndex.count args 1 with
    | error e => rfl
    | ok size =>
      cases args[2]?.any (!·.isNull) with
      | false => exact congrArg Except.ok (hvalue (PageIndex.of index size pageSize)).symm
      | true =>
        cases PageIndex.count args 2 with
        | error e => rfl
        | ok rows => exact congrArg Except.ok (hvalue (PageIndex.of index size rows)).symm

/-- The functions that are always there know data only by what they are given. -/
theorem confined_builtins (pageSize : Nat) {name : String} {f : Function}
    (h : (builtins pageSize).get? name = some f) : f.Confined := by
  have hmem := Fields.mem_of_get? h
  simp only [builtins, List.mem_cons, Prod.mk.injEq, List.not_mem_nil, or_false] at hmem
  rcases hmem with ⟨-, rfl⟩ | ⟨-, rfl⟩ | ⟨-, rfl⟩ | ⟨-, rfl⟩ | ⟨-, rfl⟩ | ⟨-, rfl⟩ | ⟨-, rfl⟩ |
    ⟨-, rfl⟩ | ⟨-, rfl⟩ | ⟨-, rfl⟩ | ⟨-, rfl⟩ | ⟨-, rfl⟩ | ⟨-, rfl⟩ | ⟨-, rfl⟩ | ⟨-, rfl⟩
  iterate 6 exact confined_comparing _
  · refine confined_reading fun _ => unary_renumber fun a => ?_
    rw [negation, negation, value_renumber, Value.isTruthy_renumber]
    rfl
  · exact confined_reading fun _ args => checked_renumber _ args <| by
      simp only [List.all_map, Function.comp_def, value_renumber, Value.isTruthy_renumber]
      rfl
  · exact confined_reading fun _ args => checked_renumber _ args <| by
      simp only [List.any_map, Function.comp_def, value_renumber, Value.isTruthy_renumber]
      rfl
  · refine confined_reading fun h => unary_renumber fun a => ?_
    rw [emptiness, emptiness, value_renumber, length?_renumber h]
    rfl
  · refine confined_reading fun h args => ?_
    simp only [concatenation, List.map_map, Function.comp_def, value_renumber, h.text]
    rfl
  iterate 2
    refine confined_reading fun h => unary_renumber fun a => ?_
    rw [recased, recased, value_renumber, h.text]
    rfl
  · refine confined_reading fun h => unary_renumber fun a => ?_
    rw [size, size, value_renumber, length?_renumber h]
    cases length? _ a.value with
    | none => rfl
    | some n => simp [Except.map]
  · exact confined_reading fun _ args => page_renumber pageSize args

end Function

end TextTemplate
