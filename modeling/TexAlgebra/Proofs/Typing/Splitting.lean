import TexAlgebra.Proofs.Environment.Resolution
import TexAlgebra.Proofs.Printer.Nonempty
import TexAlgebra.Proofs.Typing.Apart
import TexAlgebra.Proofs.Typing.Depth
/-!
# Calls in two steps

The arguments of a call may be supplied in two steps: a call with the first of them is a function
of the remaining parameters, and if that is bound to a new name, then a call of this name with the
other arguments is classified as the one call with all arguments is, or refused for the same reason
(`Typing.endsAlike_split`).
-/

namespace TexAlgebra

namespace Typing

/-- The failure of a call with too many arguments. -/
def excess (given expected : Nat) (token : Option Token) : Failure :=
  .fault ⟨.typing (.tooManyArguments given expected), token⟩

/-- Whether two checks have classifications of one kind, with one arity and the same bound
parameters, or fail for the same reason: with the same failure, or both because of a call with too
many arguments. -/
inductive EndsAlike : Except Failure Classification → Except Failure Classification → Prop
  | ok {c d : Classification} (kind : c.kind = d.kind) (arity : c.arity = d.arity)
      (bound : c.bound = d.bound) : EndsAlike (.ok c) (.ok d)
  | failure (e : Failure) : EndsAlike (.error e) (.error e)
  | excess {given expected given' expected' : Nat} {token token' : Option Token} :
    EndsAlike (.error (Typing.excess given expected token))
      (.error (Typing.excess given' expected' token'))

/-- Every end is like itself. -/
theorem endsAlike_refl (r : Except Failure Classification) : EndsAlike r r := by
  cases r with
  | ok c => exact .ok rfl rfl rfl
  | error e => exact .failure e

variable {body : Room → Expr → Check Classification} {types : Environment Classification}

/-! ## Arguments -/

/-- Every expression of a list has a classification. -/
theorem length_of_classifyAllWith {es : List Expr} {cs : List Classification}
    {types types' : Environment Classification}
    (h : classifyAllWith body .unbounded es types = (.ok cs, types')) : cs.length = es.length := by
  induction es generalizing cs types with
  | nil =>
    rw [classifyAllWith] at h
    cases h
    rfl
  | cons e es ih =>
    rw [classifyAllWith] at h
    obtain ⟨c, types₁, -, h⟩ := ok_of_bind_state h
    obtain ⟨ds, types₂, later, h⟩ := ok_of_bind_state h
    cases h
    rw [List.length_cons, List.length_cons, ih later]

/-- Two lists are classified one after the other. -/
theorem classifyAllWith_append (es fs : List Expr) :
    classifyAllWith body .unbounded (es ++ fs) = (do
      let cs ← classifyAllWith body .unbounded es
      let ds ← classifyAllWith body .unbounded fs
      return cs ++ ds) := by
  induction es with
  | nil => simp [classifyAllWith]
  | cons e es ih => simp [classifyAllWith, ih]

/-- Expressions without definitions that are accepted one by one are accepted together. -/
theorem exists_classifyAllWith {es : List Expr}
    (called : ∀ room e, Binds id e.definitions (body room e))
    (plain : ∀ e ∈ es, e.definitions = [] ∧ ∃ c, (classifyWith body .unbounded e types).1 = .ok c) :
    ∃ cs, classifyAllWith body .unbounded es types = (.ok cs, types) := by
  induction es with
  | nil => exact ⟨[], by rw [classifyAllWith]; rfl⟩
  | cons e es ih =>
    obtain ⟨⟨none, c, accepted⟩, others⟩ := List.forall_mem_cons.1 plain
    obtain ⟨cs, later⟩ := ih others
    have same : (classifyWith body .unbounded e types).2 = types :=
      (none ▸ (binds_classifyWith called _ e).extends types (by rw [accepted]; rfl)).eq_of_nil
    have first : classifyWith body .unbounded e types = (.ok c, types) := Prod.ext accepted same
    refine ⟨c :: cs, ?_⟩
    rw [classifyAllWith, bind_of_ok first, bind_of_ok later]
    rfl

/-! ## Calls -/

/-- What a call of a known function does once its arguments are classified. -/
theorem classifyWith_call {callee : Expr} {f : Function} {bound : Scope Classification}
    {arguments : List Expr} {supplied : List Classification} (token : Option Token)
    (isName : callee.isVariable = true)
    (known : types.lookup callee = .ok (some (.function f bound)))
    (classified : classifyAllWith body .unbounded arguments types = (.ok supplied, types)) :
    classifyWith body .unbounded (.call callee arguments token) types =
      if f.arity < arguments.length then (.error (excess arguments.length f.arity token), types)
      else (if arguments.length = f.arity then
        inScope .unbounded (bound ++ f.parameters.zip supplied) (body .unbounded f.body)
      else pure (.function (remaining f arguments.length token)
        (bound ++ f.parameters.zip supplied))) types := by
  have found : classifyWith body .unbounded callee types = (.ok (.function f bound), types) := by
    cases callee with
    | var name subscripts t =>
      have looked : lookup (.var name subscripts t) types =
          (.ok (some (.function f bound)), types) := by
        show attempt (types.lookup _) types = _
        rw [known]
        rfl
      rw [classifyWith]
      exact bind_of_ok looked
    | _ => cases isName
  rw [classifyWith]
  refine (bind_of_ok found).trans ?_
  rw [callable]
  by_cases many : f.arity < arguments.length
  · rw [if_pos many, if_pos many]
    rfl
  · rw [if_neg many, if_neg many, pure_bind]
    exact bind_of_ok classified

/-- Supplying arguments in two steps binds the parameters to the same classifications. -/
theorem append_zip_append {f : Function} {cs ds : List Classification}
    (bound : Scope Classification) (token : Option Token) (few : cs.length ≤ f.arity) :
    bound ++ f.parameters.zip (cs ++ ds) =
      bound ++ f.parameters.zip cs ++ (remaining f cs.length token).parameters.zip ds := by
  have first : (f.parameters.take cs.length).length = cs.length := List.length_take_of_le few
  have both : ∀ es, f.parameters.zip (cs ++ es) =
      (f.parameters.take cs.length).zip cs ++ (f.parameters.drop cs.length).zip es := by
    intro es
    conv_lhs => rw [← List.take_append_drop cs.length f.parameters]
    exact List.zip_append first
  have left : f.parameters.zip cs = (f.parameters.take cs.length).zip cs := by
    simpa using both []
  rw [both, left, remaining, List.append_assoc]

/-- What is left of a function takes as many arguments as were missing. -/
theorem arity_remaining (f : Function) (given : Nat) (token : Option Token) :
    (remaining f given token).arity = f.arity - given :=
  List.length_drop

section

variable {callee h : Expr} {f : Function} {bound : Scope Classification} {xs ys : List Expr}
  (isName : callee.isVariable = true) (known : types.lookup callee = .ok (some (.function f bound)))
  (fresh : h.isVariable = true) (apart : types.IsApart h)
include isName known fresh apart

/-- A call with too few arguments can be bound to a new name. -/
theorem exists_binding_call (t u : Option Token) {cs : List Classification}
    (few : xs.length < f.arity)
    (classified : classifyAllWith body .unbounded xs types = (.ok cs, types)) :
    ∃ types', classifyWith body .unbounded (.binding h (.call callee xs t) u) types =
        (.ok (.function (remaining f xs.length t) (bound ++ f.parameters.zip cs)), types') ∧
      types'.lookup h =
        .ok (some (.function (remaining f xs.length t) (bound ++ f.parameters.zip cs))) ∧
      types.Adds h types' := by
  have called := classifyWith_call t isName known classified
  rw [if_neg (Nat.lt_asymm few), if_neg few.ne] at called
  have keys : types.AllBindings fun x _ => h.IsApart x := fun s hs b hb =>
    isApart_of_allVariables fresh (apart s hs b hb).1
  obtain ⟨types', made, found, adds⟩ := Environment.set_of_apart keys
    (.function (remaining f xs.length t) (bound ++ f.parameters.zip cs))
  refine ⟨types', ?_, found, adds⟩
  have bound : bind h (.function (remaining f xs.length t) (bound ++ f.parameters.zip cs)) types =
      (.ok (), types') := by
    show (attempt (types.set h _) >>= fun env => set env : Check Unit) types = _
    rw [made]
    rfl
  rw [classifyWith]
  exact (bind_of_ok called).trans (bind_of_ok bound)

omit isName known fresh in
/-- What overlooks `h` has one result in both environments. -/
theorem ended_of_overlooks {α : Type} {x : Check α} {Q : α → Prop}
    {types' : Environment Classification} (overlooks : Overlooks h x Q)
    (adds : types.Adds h types') :
    (x types').1 = (x types).1 ∧
      ∀ given expected token, (x types).1 = .error (excess given expected token) →
        expected < given := by
  obtain ⟨a, _, s, s', left, right, ⟨rfl, -⟩, -⟩ | ⟨e, _, s, s', left, right, ⟨rfl, exact⟩, -⟩ :=
    overlooks.ends ⟨apart, adds⟩
  · rw [left, right]
    exact ⟨rfl, nofun⟩
  · rw [left, right]
    exact ⟨rfl, fun given expected token eq => exact given expected token (Except.error.inj eq)⟩

omit isName known in
/-- The name that was bound makes no difference to the other arguments. -/
theorem classifyAllWith_of_adds (depth : Nat) {ds : List Classification}
    {types' : Environment Classification} (adds : types.Adds h types')
    (classified : classifyAllWith (classifyWithin depth) .unbounded ys types = (.ok ds, types))
    (plain : ∀ y ∈ ys, y.definitions = []) (apart_ys : ∀ y ∈ ys, y.AllVariables h.IsApart) :
    classifyAllWith (classifyWithin depth) .unbounded ys types' = (.ok ds, types') := by
  have overlooks : Overlooks h (classifyAllWith (classifyWithin depth) .unbounded ys)
      fun cs => ∀ c ∈ cs, c.IsApart h :=
    overlooks_classifyAllWith fun y hy =>
      overlooks_classifyWith fresh (fun room _ => overlooks_classifyWithin fresh depth room)
        (apart_ys y hy)
  obtain ⟨same, -⟩ := ended_of_overlooks apart overlooks adds
  rw [classified] at same
  have extended := (binds_classifyAllWith (binds_classifyWithin depth) _ ys).extends types'
    (by rw [same]; rfl)
  rw [Expr.definitionsOfAll_eq_nil plain] at extended
  exact Prod.ext same extended.eq_of_nil

omit isName in
/-- Nor does it make a difference to the body of the function, where the parameters are bound. -/
theorem overlooks_saturated (depth : Nat) (t : Option Token) {cs ds : List Classification}
    (classified : classifyAllWith (classifyWithin depth) .unbounded xs types = (.ok cs, types))
    (classified' : classifyAllWith (classifyWithin depth) .unbounded ys types = (.ok ds, types))
    (plain_xs : ∀ x ∈ xs, x.definitions = []) (plain_ys : ∀ y ∈ ys, y.definitions = []) :
    Overlooks h
      (inScope .unbounded
        (bound ++ f.parameters.zip cs ++ (remaining f xs.length t).parameters.zip ds)
        (classifyWithin depth .unbounded f.body)) (Classification.IsApart h) := by
  have called : ∀ (room : Room) (e : Expr), e.AllVariables h.IsApart →
      Overlooks h (classifyWithin depth room e) (Classification.IsApart h) :=
    fun room _ => overlooks_classifyWithin fresh depth room
  have values (es : List Expr) (supplied : List Classification)
      (plain : ∀ e ∈ es, e.definitions = [])
      (made : classifyAllWith (classifyWithin depth) .unbounded es types = (.ok supplied, types)) :
      ∀ c ∈ supplied, c.IsApart h :=
    ((staysApart_classifyAllWith fresh called _ (Expr.definitionsOfAll_eq_nil plain) types
      apart).of_ok made).2
  obtain ⟨-, -, -, function⟩ := apart.of_lookup known
  have left := isApart_remaining xs.length t function (values xs cs plain_xs classified)
  cases function with
  | function _ inner _ _ =>
    exact overlooks_inScope fresh
      (isApart_append_zip left (values ys ds plain_ys classified')) (called _ _ inner)

/-- A call of the bound name with the other arguments ends like the call with all of them. -/
theorem endsAlike_called (depth : Nat) (t t₁ t₂ : Option Token) {cs ds : List Classification}
    {types' : Environment Classification} (few : xs.length < f.arity)
    (classified : classifyAllWith (classifyWithin depth) .unbounded xs types = (.ok cs, types))
    (classified' : classifyAllWith (classifyWithin depth) .unbounded ys types = (.ok ds, types))
    (found : types'.lookup h =
      .ok (some (.function (remaining f xs.length t) (bound ++ f.parameters.zip cs))))
    (adds : types.Adds h types') (plain_xs : ∀ x ∈ xs, x.definitions = [])
    (plain_ys : ∀ y ∈ ys, y.definitions = []) (apart_ys : ∀ y ∈ ys, y.AllVariables h.IsApart) :
    let split := (classifyWithin (depth + 1) .unbounded (.call h ys t₁) types').1
    let whole := (classifyWithin (depth + 1) .unbounded (.call callee (xs ++ ys) t₂) types).1
    EndsAlike split whole ∧
      (split = .error (excess ys.length (f.arity - xs.length) t₁) ↔
        f.arity < xs.length + ys.length) ∧
      (whole = .error (excess (xs.length + ys.length) f.arity t₂) ↔
        f.arity < xs.length + ys.length) := by
  have classified_ys :=
    classifyAllWith_of_adds fresh apart depth adds classified' plain_ys apart_ys
  have classified_all : classifyAllWith (classifyWithin depth) .unbounded (xs ++ ys) types =
      (.ok (cs ++ ds), types) := by
    rw [classifyAllWith_append, bind_of_ok classified, bind_of_ok classified']
    rfl
  have length := length_of_classifyAllWith classified
  have split := classifyWith_call t₁ fresh found classified_ys
  have whole := classifyWith_call t₂ isName known classified_all
  rw [append_zip_append bound t (length ▸ few.le), length, List.length_append] at whole
  rw [arity_remaining] at split
  simp only [classifyWithin, split, whole]
  rcases Nat.lt_trichotomy f.arity (xs.length + ys.length) with many | saturated | fewer
  · -- both calls have too many arguments
    have many' : f.arity - xs.length < ys.length := by omega
    rw [if_pos many, if_pos many']
    exact ⟨.excess, iff_of_true rfl many, iff_of_true rfl many⟩
  · -- the function is called, with the same parameters in both environments
    have enough : ¬ f.arity - xs.length < ys.length := by omega
    have exactly : ys.length = f.arity - xs.length := by omega
    rw [if_neg saturated.not_lt, if_neg enough, if_pos saturated.symm, if_pos exactly]
    obtain ⟨same, exact⟩ := ended_of_overlooks apart (overlooks_saturated known fresh apart depth t
      classified classified' plain_xs plain_ys) adds
    refine ⟨same ▸ endsAlike_refl _, iff_of_false (fun failed => ?_) saturated.not_lt,
      iff_of_false (fun failed => ?_) saturated.not_lt⟩
    · exact enough (exact _ _ _ (same ▸ failed))
    · exact saturated.not_lt (exact _ _ _ failed)
  · -- both calls leave a function of the same parameters
    have enough : ¬ f.arity - xs.length < ys.length := by omega
    have fewer' : ys.length ≠ f.arity - xs.length := by omega
    rw [if_neg fewer.not_gt, if_neg enough, if_neg fewer.ne, if_neg fewer']
    refine ⟨.ok rfl ?_ rfl, iff_of_false nofun fewer.not_gt, iff_of_false nofun fewer.not_gt⟩
    simp only [Classification.arity, arity_remaining]
    omega

end

/-! ## Statements -/

/-- Checking what can be written out is classifying it. -/
theorem checkStatement_eq {depth : Nat} {e : Expr} {text : String}
    (written : e.tex .oneLine = .ok text) :
    checkStatement depth .unbounded e = classifyWithin depth .unbounded e := by
  rw [checkStatement, texWithin_unbounded, written]
  simp [attempt]

/-- A statement that is accepted can be written out and has a classification. -/
theorem exists_of_checkStatement {depth : Nat} {e : Expr} {c : Classification}
    (h : (checkStatement depth .unbounded e types).1 = .ok c) :
    (∃ text, e.tex .oneLine = .ok text) ∧
      ∃ c, (classifyWithin depth .unbounded e types).1 = .ok c := by
  have checked : checkStatement depth .unbounded e types =
    (.ok c, (checkStatement depth .unbounded e types).2) := Prod.ext h rfl
  obtain ⟨d, types₁, classified, later⟩ := ok_of_bind_state checked
  refine ⟨?_, d, by rw [classified]⟩
  cases written : e.tex .oneLine with
  | ok text => exact ⟨text, rfl⟩
  | error o =>
    rw [texWithin_unbounded, written] at later
    cases later

/-- A call can be written out if the callee and all arguments can. -/
theorem exists_tex_call {callee : Expr} {arguments : List Expr} {style : Style}
    (written : ∃ text, callee.tex style = .ok text)
    (all : ∀ a ∈ arguments, ∃ text, a.tex style = .ok text) (token : Option Token) :
    ∃ text, (Expr.call callee arguments token).tex style = .ok text := by
  obtain ⟨name, written⟩ := written
  obtain ⟨texts, written'⟩ := Expr.texAll_ok all
  exact ⟨_, by rw [Expr.tex, written, written']; rfl⟩

section

variable {depth : Nat} {callee h : Expr} {f : Function} {bound : Scope Classification}
  {xs ys : List Expr}

/-- Where there is room for any number of levels, nothing but the number of arguments can tell a
call in two steps from one call. -/
theorem endsAlike_split_unbounded {run : Expr → Check Classification} (t u t₁ t₂ : Option Token)
    (runs : run = classifyWithin (depth + 1) .unbounded ∨
      run = checkStatement (depth + 1) .unbounded ∧
        (∃ text, callee.tex .oneLine = .ok text) ∧ ∃ text, h.tex .oneLine = .ok text)
    (isName : callee.isVariable = true)
    (known : types.lookup callee = .ok (some (.function f bound)))
    (few : xs.length < f.arity)
    (plain : ∀ e ∈ xs ++ ys, e.definitions = [] ∧ ∃ c, (run e types).1 = .ok c)
    (fresh : h.isVariable = true) (apart : types.IsApart h)
    (apart_ys : ∀ y ∈ ys, y.AllVariables h.IsApart) :
    ∃ c types', run (.binding h (.call callee xs t) u) types = (.ok c, types') ∧
      EndsAlike (run (.call h ys t₁) types').1 (run (.call callee (xs ++ ys) t₂) types).1 ∧
      ((run (.call h ys t₁) types').1 = .error (excess ys.length (f.arity - xs.length) t₁) ↔
        f.arity < xs.length + ys.length) ∧
      ((run (.call callee (xs ++ ys) t₂) types).1 =
          .error (excess (xs.length + ys.length) f.arity t₂) ↔
        f.arity < xs.length + ys.length) := by
  let classify := classifyWithin (depth + 1) .unbounded
  -- all that is checked can be written out, so that checking is classifying
  have same : (∀ e ∈ xs ++ ys, ∃ c, (classify e types).1 = .ok c) ∧
      run (.binding h (.call callee xs t) u) = classify (.binding h (.call callee xs t) u) ∧
      run (.call h ys t₁) = classify (.call h ys t₁) ∧
      run (.call callee (xs ++ ys) t₂) = classify (.call callee (xs ++ ys) t₂) := by
    obtain rfl | ⟨rfl, called, name, named⟩ := runs
    · exact ⟨fun e he => (plain e he).2, rfl, rfl, rfl⟩
    · have written : ∀ e ∈ xs ++ ys, ∃ text, e.tex .oneLine = .ok text := fun e he =>
        (exists_of_checkStatement (plain e he).2.choose_spec).1
      obtain ⟨first, others⟩ := List.forall_mem_append.1 written
      obtain ⟨left, written_left⟩ := exists_tex_call called first t
      obtain ⟨split, written_split⟩ := exists_tex_call ⟨name, named⟩ others t₁
      obtain ⟨whole, written_whole⟩ := exists_tex_call called written t₂
      have binding : (Expr.binding h (.call callee xs t) u).tex .oneLine =
          .ok (name ++ " = " ++ left) := by
        rw [Expr.tex, named, written_left]
        rfl
      exact ⟨fun e he => (exists_of_checkStatement (plain e he).2.choose_spec).2,
        checkStatement_eq binding, checkStatement_eq written_split,
        checkStatement_eq written_whole⟩
  obtain ⟨accepted, binding, split, whole⟩ := same
  rw [binding, split, whole]
  have accepted' : ∀ e ∈ xs ++ ys, e.definitions = [] ∧ ∃ c, (classify e types).1 = .ok c :=
    fun e he => ⟨(plain e he).1, accepted e he⟩
  obtain ⟨first, others⟩ := List.forall_mem_append.1 accepted'
  obtain ⟨cs, classified⟩ := exists_classifyAllWith (binds_classifyWithin _) first
  obtain ⟨ds, classified'⟩ := exists_classifyAllWith (binds_classifyWithin _) others
  obtain ⟨types', made, found, adds⟩ :=
    exists_binding_call isName known fresh apart t u few classified
  exact ⟨_, types', made, endsAlike_called isName known fresh apart _ t t₁ t₂ few classified
    classified' found adds (fun x hx => (first x hx).1) (fun y hy => (others y hy).1) apart_ys⟩

/-- Classifying, and also checking where the two names can be written out, does not depend on how
arguments are split: a call with the first of them, bound to a new name `h`, is accepted, and the
call of `h` with the others ends like the one call with all of them. Each of the two calls is
refused for its number of arguments exactly if there are too many in all; a call in the body of the
function may still be refused for its own number of arguments, and then the failure is the same.
Only where room is bounded there can be too little of it for one of the three. -/
theorem endsAlike_split {room : Room} {run : Expr → Check Classification} (t u t₁ t₂ : Option Token)
    (runs : run = classifyWithin (depth + 1) room ∨
      run = checkStatement (depth + 1) room ∧
        (∃ text, callee.tex .oneLine = .ok text) ∧ ∃ text, h.tex .oneLine = .ok text)
    (isName : callee.isVariable = true)
    (known : types.lookup callee = .ok (some (.function f bound)))
    (few : xs.length < f.arity)
    (plain : ∀ e ∈ xs ++ ys, e.definitions = [] ∧ ∃ c, (run e types).1 = .ok c)
    (fresh : h.isVariable = true) (apart : types.IsApart h)
    (apart_ys : ∀ y ∈ ys, y.AllVariables h.IsApart) :
    let first := run (.binding h (.call callee xs t) u) types
    let split := (run (.call h ys t₁) first.2).1
    let whole := (run (.call callee (xs ++ ys) t₂) types).1
    room ≠ .unbounded ∧ (ranOut first.1 || ranOut split || ranOut whole) = true ∨
      (∃ c, first.1 = .ok c) ∧ EndsAlike split whole ∧
        (split = .error (excess ys.length (f.arity - xs.length) t₁) ↔
          f.arity < xs.length + ys.length) ∧
        (whole = .error (excess (xs.length + ys.length) f.arity t₂) ↔
          f.arity < xs.length + ys.length) := by
  intro first split whole
  -- `run` abridges what is done where there is room for any number of levels
  obtain ⟨run', runs', same⟩ : ∃ run' : Expr → Check Classification,
      (run' = classifyWithin (depth + 1) .unbounded ∨
        run' = checkStatement (depth + 1) .unbounded ∧
          (∃ text, callee.tex .oneLine = .ok text) ∧ ∃ text, h.tex .oneLine = .ok text) ∧
        ∀ e s, room ≠ .unbounded ∧ ranOut (run e s).1 = true ∨ run e s = run' e s := by
    obtain rfl | ⟨rfl, named⟩ := runs
    · exact ⟨_, .inl rfl, fun e => @ranOut_or_eq _ _ _ (classifyWithin (depth + 1) · e)
        (abridges_classifyWithin le_rfl (Room.le_unbounded room) e)⟩
    · exact ⟨_, .inr ⟨rfl, named⟩, fun e => @ranOut_or_eq _ _ _ (checkStatement (depth + 1) · e)
        (abridges_checkStatement le_rfl (Room.le_unbounded room) e)⟩
  have accepted : ∀ e ∈ xs ++ ys, e.definitions = [] ∧ ∃ c, (run' e types).1 = .ok c := by
    intro e he
    obtain ⟨none, c, accepted⟩ := plain e he
    obtain ⟨-, out⟩ | same := same e types
    · rw [accepted] at out
      cases out
    · exact ⟨none, c, same ▸ accepted⟩
  obtain ⟨c, types', made, rest⟩ :=
    endsAlike_split_unbounded t u t₁ t₂ runs' isName known few accepted fresh apart apart_ys
  obtain ⟨bounded, out⟩ | first_eq : room ≠ .unbounded ∧ ranOut first.1 = true ∨ _ := same _ _
  · exact .inl ⟨bounded, by rw [out]; rfl⟩
  obtain ⟨bounded, out⟩ | split_eq := same (.call h ys t₁) first.2
  · exact .inl ⟨bounded, by simp only [split, out, Bool.or_true, Bool.true_or]⟩
  obtain ⟨bounded, out⟩ | whole_eq := same (.call callee (xs ++ ys) t₂) types
  · exact .inl ⟨bounded, by simp only [whole, out, Bool.or_true]⟩
  have made' : first = (.ok c, types') := first_eq.trans made
  simp only [split, whole]
  rw [split_eq, whole_eq, made']
  exact .inr ⟨⟨c, rfl⟩, rest⟩

end

/-- A function that has its `x` already is supplied with a `y` and a `z`, one after the other, in
room for six levels. -/
theorem endsAlike_split_sum :
    let x := Expr.var "x" [] none
    let y := Expr.var "y" [] none
    let z := Expr.var "z" [] none
    let f := Expr.var "f" [] none
    let h := Expr.var "h" [] none
    let one := Expr.number "1" none
    let two := Expr.number "2" none
    let sum := Function.mk .curried f [y, z] none (.binary .plus x (.binary .plus y z none) none)
      [] none
    let types : Environment Classification := ⟨[(f, .function sum [(x, .number one)])], []⟩
    let classify := classifyWithin 2 (.levels 6)
    let first := classify (.binding h (.call f [one] none) none) types
    let split := (classify (.call h [two] none) first.2).1
    let whole := (classify (.call f ([one] ++ [two]) none) types).1
    (∃ c, first.1 = .ok c) ∧ EndsAlike split whole ∧
      (split = .error (excess 1 (2 - 1) none) ↔ 2 < 1 + 1) ∧
      (whole = .error (excess (1 + 1) 2 none) ↔ 2 < 1 + 1) := by
  intro x y z f h one two sum types classify first split whole
  -- every other name is apart from `h`
  have apart (name : String) (other : name ≠ "h") :
      (Expr.var name [] none).AllVariables h.IsApart := by
    refine .var ⟨?_, ?_, ?_⟩ nofun
    · rw [Expr.beq_name]
      simp [Expr.name?, h, other.symm]
    · rw [Expr.matchesWith_name]
      simp [Expr.name?, h, other.symm]
    · rw [Expr.matchesWith_name]
      simp [Expr.name?, other]
  have known : types.lookup f = .ok (some (.function sum [(x, .number one)])) := by
    rw [Environment.lookup_name]
    rfl
  have few : [one].length < sum.arity := by decide
  let given : Scope Classification := [(x, .number one), (y, .number one), (z, .number two)]
  let rest : Classification := .function (remaining sum 1 none) (given.take 2)
  let types' : Environment Classification := ⟨types.globals ++ [(h, rest)], []⟩
  have unmatched : ∀ b ∈ types.globals, b.1.matchesWith h = .ok false := by
    simp [types, f, h, Expr.matchesWith_name, Expr.name?]
  have added : types.set h rest = .ok types' := by
    show ((do return (← Scope.erase h types.globals) ++ [(h, rest)] :
      Except Obstacle (Scope Classification)) >>= fun s => pure ⟨s, []⟩) = Except.ok types'
    rw [Scope.erase_of_unmatched unmatched]
    rfl
  have bound : Typing.bind h rest types = (.ok (), types') := by
    show (do set (← attempt (types.set h rest)) : Check Unit) types = _
    rw [added]
    rfl
  have supplied : first = (.ok rest, types') := by
    show classifyWith _ _ _ types = _
    rw [classifyWith]
    exact (bind_of_ok rfl).trans (bind_of_ok bound)
  have called (globals : Scope Classification) :
      ranOut (inScope (.levels 5) given (classifyWithin 1 (.levels 5) sum.body)
        ⟨globals, []⟩).1 = false := by
    have distinct : given.Pairwise fun b c => b.1.matchesWith c.1 = .ok false := by
      simp [given, x, y, z, Expr.matchesWith_name, Expr.name?]
    rw [inScope_of_setAll (Environment.setAll_push_of_pairwise distinct)]
    rfl
  have enough : (ranOut first.1 || ranOut split || ranOut whole) = false := by
    have split_eq : ranOut split = false := by
      simp only [split, supplied]
      exact called _
    have whole_eq : ranOut whole = false := called _
    rw [supplied, split_eq, whole_eq]
    rfl
  refine (endsAlike_split none none none none
    (.inl rfl) rfl known few ?_ rfl ?_ ?_).resolve_left ?_
  · refine List.forall_mem_cons.2 ⟨⟨rfl, .number one, rfl⟩, ?_⟩
    exact List.forall_mem_singleton.2 ⟨rfl, .number two, rfl⟩
  · have parameters : ∀ p ∈ sum.parameters, p.AllVariables h.IsApart :=
      List.forall_mem_cons.2
        ⟨apart "y" (by decide), List.forall_mem_singleton.2 (apart "z" (by decide))⟩
    have body : sum.body.AllVariables h.IsApart :=
      .binary (apart "x" (by decide)) (.binary (apart "y" (by decide)) (apart "z" (by decide)))
    have function : (Classification.function sum [(x, .number one)]).IsApart h :=
      .function parameters body (List.forall_mem_singleton.2 (apart "x" (by decide)))
        (List.forall_mem_singleton.2 .number)
    exact List.forall_mem_singleton.2
      (List.forall_mem_singleton.2 ⟨apart "f" (by decide), function⟩)
  · exact List.forall_mem_singleton.2 .number
  · rintro ⟨-, early⟩
    exact Bool.false_ne_true (enough.symm.trans early)

end Typing

end TexAlgebra
