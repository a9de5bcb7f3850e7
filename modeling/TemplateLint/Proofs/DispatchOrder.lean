import TemplateLint.Proofs.Recording
import TemplateLint.Proofs.Registration

/-!
# The order of calls

A walk over the tokens of a file has a schedule that is known before it starts: token by token up to
the first that opts out, and at each token the rules that listen for its type. Rules may do anything
to the file, and may put another one in its place. The walk goes through the schedule all the same:
a rule that is suppressed for the file as it then is, under the path and the settings that it then
has, is passed over, every other one is called, and the first call that fails is the last.
-/

namespace TemplateLint

variable {σ : Type}

def FileChange.isEdit : FileChange → Bool
  | edit _ => true
  | replace _ _ => false

/-- As long as a file is only worked on, it keeps its path and its settings. -/
theorem FileChange.applyAll_frame {changes : List FileChange}
    (h : ∀ change ∈ changes, change.isEdit) (f : CheckedFile) :
    (applyAll f changes).path = f.path ∧ (applyAll f changes).context = f.context := by
  induction changes generalizing f with
  | nil => exact ⟨rfl, rfl⟩
  | cons change changes ih =>
      have hfirst := h change List.mem_cons_self
      have hrest := ih (fun c hc => h c (List.mem_cons_of_mem _ hc)) (change.apply f)
      cases change with
      | edit op =>
          have hstep := FileOp.apply_frame f op
          exact ⟨hrest.1.trans hstep.1, hrest.2.trans hstep.2⟩
      | replace path context => exact absurd hfirst Bool.false_ne_true

namespace FileCall

def place (c : FileCall) : Nat × Callee := (c.position, c.callee)

/-- The file as the rule left it. -/
def left (c : FileCall) : CheckedFile := FileChange.applyAll c.file c.changes

/-- Whether the rule put no other file in the place of the one it was given. -/
def OnlyEdits (c : FileCall) : Prop := ∀ change ∈ c.changes, change.isEdit

/-- Whether a call is one on the given file: its rule is not suppressed there, and is at work. -/
structure IsOn (c : FileCall) (file : CheckedFile) : Prop where
  notSuppressed : file.context.patterns.suppresses file.path c.callee.id.text = false
  file_eq : c.file = file.setActiveRule (some c.callee.id)

end FileCall

/-- Whether calls go through a plan: a rule that is suppressed for the file at hand is passed over,
a call that ends well hands the file on, and the first call that fails is the last. The ending is
that of the last call. -/
inductive Follows : CheckedFile → List (Nat × Callee) → List FileCall → Ending → Prop where
  | finished (file : CheckedFile) : Follows file [] [] .done
  | passedOver {file : CheckedFile} {callee : Callee} {rest : List (Nat × Callee)}
      {calls : List FileCall} {ending : Ending} (position : Nat)
      (h : file.context.patterns.suppresses file.path callee.id.text)
      (tail : Follows file rest calls ending) :
      Follows file ((position, callee) :: rest) calls ending
  | failed {file : CheckedFile} {call : FileCall} (rest : List (Nat × Callee))
      (h : call.IsOn file) (hfail : call.ending ≠ .done) :
      Follows file (call.place :: rest) [call] call.ending
  | next {file : CheckedFile} {call : FileCall} {rest : List (Nat × Callee)}
      {calls : List FileCall} {ending : Ending} (h : call.IsOn file) (hdone : call.ending = .done)
      (tail : Follows (call.left.setActiveRule none) rest calls ending) :
      Follows file (call.place :: rest) (call :: calls) ending

namespace Follows

variable {file : CheckedFile} {plan : List (Nat × Callee)} {calls : List FileCall} {ending : Ending}

theorem entered (h : Follows file plan calls ending) :
    ∀ c ∈ calls, c.file.activeRule = some c.callee.id := by
  have hown {c : FileCall} {file : CheckedFile} (hon : c.IsOn file) :
      c.file.activeRule = some c.callee.id := by
    rw [hon.file_eq]
    rfl
  induction h with
  | finished => simp
  | passedOver _ _ _ ih => exact ih
  | failed _ hon _ => exact List.forall_mem_singleton.2 (hown hon)
  | next hon _ _ ih => exact List.forall_mem_cons.2 ⟨hown hon, ih⟩

/-- While no other file takes the place of the one at hand, what is passed over is settled at the
start. -/
theorem places_of_onlyEdits (h : Follows file plan calls ending)
    (hedits : ∀ c ∈ calls, c.OnlyEdits) :
    let due := plan.filter fun a => !file.context.patterns.suppresses file.path a.2.id.text
    calls.map FileCall.place <+: due ∧ (ending = .done → calls.map FileCall.place = due) := by
  induction h with
  | finished => exact ⟨List.prefix_rfl, fun _ => rfl⟩
  | passedOver position hsup _ ih =>
      rw [List.filter_cons_of_neg (by simp [hsup])]
      exact ih hedits
  | @failed file call rest hon hfail =>
      rw [List.filter_cons_of_pos (by simp [FileCall.place, hon.notSuppressed])]
      exact ⟨⟨_, rfl⟩, fun hdone => absurd hdone hfail⟩
  | @next file call rest calls ending hon hdone _ ih =>
      obtain ⟨hfirst, hrest⟩ := List.forall_mem_cons.1 hedits
      have hframe : call.left.path = file.path ∧ call.left.context = file.context := by
        have hkept := FileChange.applyAll_frame hfirst call.file
        rw [hon.file_eq] at hkept
        rw [FileCall.left, hon.file_eq]
        exact hkept
      have hdue := ih hrest
      simp only [CheckedFile.setActiveRule, hframe.1, hframe.2] at hdue
      rw [List.filter_cons_of_pos (by simp [FileCall.place, hon.notSuppressed]), List.map_cons]
      refine ⟨List.cons_prefix_cons.2 ⟨rfl, hdue.1⟩, fun hend => ?_⟩
      rw [hdue.2 hend]

end Follows

/-- Whether control comes back to the caller. -/
def Ending.returns : Ending → Bool
  | crashed _ => false
  | _ => true

theorem Ending.failure?_eq_none_iff (ending : Ending) :
    ending.failure? = none ↔ ending = .done := by
  cases ending <;> simp [failure?]

/-- What is known of calls on a file: recorders saw them and nothing else, they follow the plan,
afterwards no rule is at work, and a file that was only worked on has kept its path. -/
structure Traced (plan : List (Nat × Callee)) (file : CheckedFile) (trace : List Call)
    (d : Dispatched σ) (d' : Dispatched (σ × List Call)) (calls : List FileCall) : Prop where
  recorded : d' = d.recording (trace ++ calls.map .file)
  follows : Follows file plan calls d.ending
  left : calls ≠ [] ∨ file.activeRule = none → d.ending.returns → d.file.activeRule = none
  path : (∀ c ∈ calls, c.OnlyEdits) → d.file.path = file.path

namespace RegisteredRule

theorem call_file_of_returns (e : RegisteredRule σ) (index position : Nat) (world : σ)
    (file : CheckedFile) (h : (e.call position world file).ending.returns) :
    (e.call position world file).file =
      (e.callMade index position world file).left.setActiveRule none := by
  unfold call at h ⊢
  dsimp only at h ⊢
  -- Only a crash leaves the file as the rule left it.
  cases hending : (e.rule.process world (file.setActiveRule (some e.id)) position).ending with
  | crashed reason =>
      rw [hending] at h
      exact absurd h Bool.false_ne_true
  | _ => rfl

theorem path_call (e : RegisteredRule σ) (index position : Nat) (world : σ) {file : CheckedFile}
    (h : (e.callMade index position world file).OnlyEdits) :
    (e.call position world file).file.path = file.path := by
  have hframe := (FileChange.applyAll_frame h (file.setActiveRule (some e.id))).1
  unfold call
  dsimp only
  cases (e.rule.process world (file.setActiveRule (some e.id)) position).ending <;> exact hframe

end RegisteredRule

section CallAll

variable {e : RegisteredRule σ} {file : CheckedFile}

theorem callAll_cons_of_suppressed (h : file.context.patterns.suppresses file.path e.id.text)
    (position : Nat) (es : List (RegisteredRule σ)) (world : σ) :
    callAll position (e :: es) world file = callAll position es world file := by
  rw [callAll, if_pos h]

theorem callAll_cons_of_called (h : ¬ file.context.patterns.suppresses file.path e.id.text)
    (position : Nat) (es : List (RegisteredRule σ)) (world : σ) :
    callAll position (e :: es) world file =
      let d := e.call position world file
      if d.ending = .done then callAll position es d.world d.file else d := by
  rw [callAll, if_neg h]
  obtain ⟨w, f, ending⟩ := e.call position world file
  cases ending <;> rfl

end CallAll

/-- A rule, by its place among the registered ones, that is due at a position. -/
structure Due (σ : Type) where
  position : Nat
  index : Nat
  rule : RegisteredRule σ

namespace Due

def place (a : Due σ) : Nat × Callee := (a.position, ⟨a.index, a.rule.id⟩)

def recorded (a : Due σ) : Due (σ × List Call) := { a with rule := a.rule.recorded a.index }

/-- Call rules that are due, one after another, until one fails. -/
def callEach : List (Due σ) → σ → CheckedFile → Dispatched σ
  | [], world, file => ⟨world, file, .done⟩
  | a :: rest, world, file =>
      if file.context.patterns.suppresses file.path a.rule.id.text then callEach rest world file
      else
        let d := a.rule.call a.position world file
        if d.ending = .done then callEach rest d.world d.file else d

theorem callEach_append (as bs : List (Due σ)) (world : σ) (file : CheckedFile) :
    callEach (as ++ bs) world file =
      let d := callEach as world file
      if d.ending = .done then callEach bs d.world d.file else d := by
  induction as generalizing world file with
  | nil => rfl
  | cons a as ih =>
      rw [List.cons_append, callEach, callEach]
      by_cases hsup : file.context.patterns.suppresses file.path a.rule.id.text
      · rw [if_pos hsup, if_pos hsup, ih]
      · rw [if_neg hsup, if_neg hsup]
        dsimp only
        by_cases hdone : (a.rule.call a.position world file).ending = .done
        · rw [if_pos hdone, if_pos hdone, ih]
        · rw [if_neg hdone, if_neg hdone, if_neg hdone]

theorem callAll_eq_callEach (es : List (Nat × RegisteredRule σ)) (position : Nat) (world : σ)
    (file : CheckedFile) :
    callAll position (es.map Prod.snd) world file =
      callEach (es.map fun a => ⟨position, a.1, a.2⟩) world file := by
  induction es generalizing world file with
  | nil => rfl
  | cons a es ih =>
      rw [List.map_cons, List.map_cons, callEach]
      by_cases hsup : file.context.patterns.suppresses file.path a.2.id.text
      · rw [callAll_cons_of_suppressed hsup, if_pos hsup, ih]
      · rw [callAll_cons_of_called hsup, if_neg hsup]
        dsimp only
        rw [ih]

/-- Recorders see the calls that follow the plan. -/
theorem traced_callEach (as : List (Due σ)) (world : σ) (file : CheckedFile) (trace : List Call) :
    ∃ calls, Traced (as.map place) file trace (callEach as world file)
      (callEach (as.map recorded) (world, trace) file) calls := by
  induction as generalizing world file trace with
  | nil =>
      refine ⟨[], by simp [callEach, Dispatched.recording], .finished file, ?_, fun _ => rfl⟩
      intro h _
      exact h.resolve_left fun hne => hne rfl
  | cons a as ih =>
      rw [List.map_cons, List.map_cons, callEach, callEach]
      by_cases hsup : file.context.patterns.suppresses file.path a.rule.id.text
      · rw [if_pos hsup, if_pos (show file.context.patterns.suppresses file.path
          a.recorded.rule.id.text from hsup)]
        obtain ⟨calls, h⟩ := ih world file trace
        exact ⟨calls, h.recorded, .passedOver a.position hsup h.follows, h.left, h.path⟩
      · rw [if_neg hsup, if_neg (show ¬ file.context.patterns.suppresses file.path
          a.recorded.rule.id.text from hsup)]
        let call := a.rule.callMade a.index a.position world file
        have hon : call.IsOn file := ⟨Bool.eq_false_iff.2 hsup, rfl⟩
        have hcall : a.recorded.rule.call a.recorded.position (world, trace) file =
            (a.rule.call a.position world file).recording (trace ++ [.file call]) :=
          a.rule.call_recorded a.index a.position world trace file
        dsimp only
        rw [hcall]
        by_cases hdone : (a.rule.call a.position world file).ending = .done
        · have hleft :=
            a.rule.call_file_of_returns a.index a.position world file (by rw [hdone]; rfl)
          rw [if_pos hdone, if_pos (show (Dispatched.recording _ _).ending = _ from hdone)]
          obtain ⟨calls, h⟩ := ih (a.rule.call a.position world file).world
            (a.rule.call a.position world file).file (trace ++ [.file call])
          refine ⟨call :: calls, ?_, .next hon hdone ?_, ?_, ?_⟩
          · have hrecorded := h.recorded
            rw [List.append_assoc, List.singleton_append] at hrecorded
            exact hrecorded
          · rw [← hleft]
            exact h.follows
          · intro _
            exact h.left (Or.inr (by rw [hleft]; rfl))
          · intro hedits
            obtain ⟨hfirst, hrest⟩ := List.forall_mem_cons.1 hedits
            exact (h.path hrest).trans (a.rule.path_call _ _ _ hfirst)
        · rw [if_neg hdone, if_neg (show (Dispatched.recording _ _).ending ≠ _ from hdone)]
          refine ⟨[call], rfl, .failed _ hon hdone, ?_, ?_⟩
          · intro _ hreturns
            rw [a.rule.call_file_of_returns a.index a.position world file hreturns]
            rfl
          · intro hedits
            exact a.rule.path_call _ _ _ (List.forall_mem_singleton.1 hedits)

end Due

namespace Registry

theorem walk_cons (r : Registry σ) (position : Nat) (t : Token) (rest : TokenStream) (world : σ)
    (file : CheckedFile) :
    r.walk position (t :: rest) world file =
      if t.optsOut then ⟨world, file.clearDiagnostics, .done⟩
      else
        let d := callAll position (r.listening t.type) world file
        if d.ending = .done then r.walk (position + 1) rest d.world d.file else d := by
  rw [walk]
  congr 1
  obtain ⟨w, f, ending⟩ := callAll position (r.listening t.type) world file
  cases ending <;> rfl

theorem listeningAt_recorded (r : Registry σ) (t : TokenType) :
    r.recorded.listeningAt t = (r.listeningAt t).map fun a => (a.1, a.2.recorded a.1) := by
  rw [listeningAt, listeningAt, List.map_filterMap]
  congr 1
  funext index
  simp [recorded, List.getElem?_mapIdx, Function.comp_def]

theorem listening_recorded (r : Registry σ) (t : TokenType) :
    r.recorded.listening t = (r.listeningAt t).map fun a => a.2.recorded a.1 := by
  rw [listening_eq_map, listeningAt_recorded, List.map_map]
  rfl

/-- The rules that are due at tokens, the first of which is at `position`. -/
def due (r : Registry σ) (position : Nat) (tokens : TokenStream) : List (Due σ) :=
  ((tokens.takeWhile fun t => !t.optsOut).zipIdx position).flatMap fun a =>
    (r.listeningAt a.1.type).map fun b => ⟨a.2, b.1, b.2⟩

theorem due_cons_of_optsOut (r : Registry σ) (position : Nat) {t : Token} (ht : t.optsOut)
    (rest : TokenStream) : r.due position (t :: rest) = [] := by
  simp [due, ht]

theorem due_cons (r : Registry σ) (position : Nat) {t : Token} (ht : ¬ t.optsOut)
    (rest : TokenStream) :
    r.due position (t :: rest) =
      (r.listeningAt t.type).map (fun a => ⟨position, a.1, a.2⟩) ++ r.due (position + 1) rest := by
  simp [due, ht, List.zipIdx_cons]

theorem due_recorded (r : Registry σ) (position : Nat) (tokens : TokenStream) :
    r.recorded.due position tokens = (r.due position tokens).map Due.recorded := by
  simp only [due, listeningAt_recorded, List.map_flatMap, List.map_map]
  rfl

/-- A walk calls the rules that are due, and drops the diagnostics if it comes to a token that opts
out. -/
theorem walk_eq_callEach (r : Registry σ) (position : Nat) (tokens : TokenStream) (world : σ)
    (file : CheckedFile) :
    r.walk position tokens world file =
      let d := Due.callEach (r.due position tokens) world file
      if d.ending = .done ∧ tokens.any Token.optsOut then
        ⟨d.world, d.file.clearDiagnostics, .done⟩
      else d := by
  induction tokens generalizing position world file with
  | nil => simp [walk, due, Due.callEach]
  | cons t rest ih =>
      rw [walk_cons]
      by_cases ht : t.optsOut
      · rw [if_pos ht, r.due_cons_of_optsOut position ht]
        simp [Due.callEach, ht]
      · rw [if_neg ht, r.due_cons position ht, Due.callEach_append, listening_eq_map,
          Due.callAll_eq_callEach]
        dsimp only
        by_cases hdone : (Due.callEach ((r.listeningAt t.type).map fun a => ⟨position, a.1, a.2⟩)
            world file).ending = .done
        · rw [if_pos hdone, if_pos hdone, ih]
          simp only [List.any_cons, ht, Bool.false_or]
        · rw [if_neg hdone, if_neg hdone, if_neg fun h => hdone h.1]

theorem traced_walk (r : Registry σ) (position : Nat) (tokens : TokenStream) (world : σ)
    (file : CheckedFile) (trace : List Call) :
    ∃ calls, Traced ((r.due position tokens).map Due.place) file trace
      (r.walk position tokens world file)
      (r.recorded.walk position tokens (world, trace) file) calls := by
  obtain ⟨calls, h⟩ := Due.traced_callEach (r.due position tokens) world file trace
  rw [walk_eq_callEach, walk_eq_callEach, due_recorded, h.recorded]
  dsimp only [Dispatched.recording]
  by_cases hcleared : (Due.callEach (r.due position tokens) world file).ending = .done ∧
      tokens.any Token.optsOut
  · rw [if_pos hcleared, if_pos hcleared]
    refine ⟨calls, rfl, ?_, ?_, h.path⟩
    · rw [← hcleared.1]
      exact h.follows
    · intro hcalls _
      exact h.left hcalls (by rw [hcleared.1]; rfl)
  · rw [if_neg hcleared, if_neg hcleared]
    exact ⟨calls, rfl, h.follows, h.left, h.path⟩

theorem traced_dispatch (r : Registry σ) {file : CheckedFile} {tokens : TokenStream}
    (h : file.tokens = some tokens) (world : σ) (trace : List Call) :
    ∃ calls, Traced ((r.due 0 tokens).map Due.place) file trace
      (r.dispatch world file) (r.recorded.dispatch (world, trace) file) calls := by
  have hrequire : file.requireTokens = .ok tokens := by simp [CheckedFile.requireTokens, h]
  rw [dispatch, dispatch, hrequire]
  exact traced_walk r 0 tokens world file trace

/-- The calls to be made at tokens, unless a rule is passed over: through the positions before the
first token that opts out, and at each one through the rules in the order of registration, those
that listen for the type of the token. -/
def schedule (r : Registry σ) (tokens : TokenStream) : List (Nat × Callee) :=
  (tokens.takeWhile fun t => !t.optsOut).zipIdx.flatMap fun (t, position) =>
    (r.fileRules.zipIdx.filter fun (e, _) => e.rule.listens.contains t.type).map
      fun (e, index) => (position, ⟨index, e.id⟩)

theorem map_place_due {r : Registry σ} (hr : r.WellFormed) (tokens : TokenStream) :
    (r.due 0 tokens).map Due.place = r.schedule tokens := by
  have hlistens (e : RegisteredRule σ) (he : e ∈ r.fileRules) (t : TokenType) :
      e.tokenTypes.contains t = e.rule.listens.contains t := by
    rw [(hr.isEntry e he).tokenTypes_eq, Bool.eq_iff_iff, List.contains_iff_mem,
      List.contains_iff_mem, mem_distinct]
  rw [due, schedule, List.map_flatMap]
  congr 1
  funext a
  rw [listeningAt_eq hr.indexed, List.map_map, List.map_map]
  apply congrArg₂ List.map
  · rfl
  · apply List.filter_congr
    intro b hb
    exact hlistens b.1 (List.fst_mem_of_mem_zipIdx hb) _

end Registry

/-- A walk over the tokens that a file holds makes the scheduled calls in their order, whatever the
rules do to the file, passes over those that are suppressed for the file as it is when their turn
comes, and stops early only right after a call that fails. As long as no rule puts another file in
its place, these are the rules suppressed for the file at the start. The rules that are called are
those given and not ignored, in the order given. Every call finds its own rule at work, and once
calls were made and control is back, no rule is. -/
theorem dispatch_order {rules : List (RuleInstance σ)} {context : Context} {r : Registry σ}
    (hr : Registry.ofRules rules context = .ok r) {file : CheckedFile} {tokens : TokenStream}
    (htokens : file.tokens = some tokens) (world : σ) :
    let d := r.dispatch world file
    let due := (r.schedule tokens).filter fun a =>
      !file.context.patterns.suppresses file.path a.2.id.text
    ∃ calls : List FileCall,
      r.recorded.dispatch (world, []) file = d.recording (calls.map .file) ∧
        r.givenFileRules = rules.filter (fun given => given.isFile && !context.ignores given) ∧
        Follows file (r.schedule tokens) calls d.ending ∧
        ((∀ c ∈ calls, c.OnlyEdits) → calls.map FileCall.place <+: due ∧
          (d.ending = .done → calls.map FileCall.place = due)) ∧
        (∀ c ∈ calls, c.file.activeRule = some c.callee.id) ∧
        (calls ≠ [] → d.ending.returns → d.file.activeRule = none) := by
  intro d due
  obtain ⟨calls, h⟩ := r.traced_dispatch htokens world []
  have hfollows := h.follows
  rw [Registry.map_place_due (Registry.wellFormed_ofRules hr)] at hfollows
  exact ⟨calls, h.recorded, (Registry.given_ofRules hr).1, hfollows, hfollows.places_of_onlyEdits,
    hfollows.entered, fun hcalls => h.left (Or.inl hcalls)⟩

/-- The first rule puts a file in place for which the second one is suppressed, later one for which
it is not, and fails at last: of seven scheduled calls, four are made. -/
theorem dispatch_order_replaced_file :
    let context : Context := ⟨{}, .standard, [⟨"B.Second".toList, "skip".toList⟩]⟩
    let first : FileRule Nat :=
      { name := "Rules.A.FirstRule".toList
        listens := [.tag]
        process := fun n file _ =>
          if n = 0 then ⟨1, [.replace "skip.tpl".toList context], .done⟩
          else if n = 1 then ⟨2, [.replace "b.tpl".toList context, .edit (.setTokens [])], .done⟩
          else ⟨n, [.edit (.setActiveRule none)], .failed (.tokensReleased file.path)⟩ }
    let second : FileRule Nat :=
      { name := "Rules.B.SecondRule".toList
        listens := [.space, .tag, .space]
        process := fun n _ _ => ⟨n, [.edit .releaseTokens], .done⟩ }
    let tokens : TokenStream :=
      [⟨.tag, "\x7ba\x7d".toList, 1, none⟩, ⟨.space, " ".toList, 1, none⟩,
        ⟨.tag, "\x7bb\x7d".toList, 1, none⟩, ⟨.tag, "\x7bc\x7d".toList, 1, none⟩]
    let file := (CheckedFile.new "a.tpl".toList context).setTokens tokens
    ∃ r, Registry.ofRules [.file first, .file second] context = .ok r ∧
      file.tokens = some tokens ∧
      (r.schedule tokens).map (fun a => (a.1, a.2.index)) =
        [(0, 0), (0, 1), (1, 1), (2, 0), (2, 1), (3, 0), (3, 1)] ∧
      ∃ calls : List FileCall,
        calls.map (fun c => (c.position, c.callee.index)) = [(0, 0), (2, 0), (2, 1), (3, 0)] ∧
        Follows file (r.schedule tokens) calls (.failed (.tokensReleased "b.tpl".toList)) ∧
        (∀ c ∈ calls, c.file.activeRule = some c.callee.id) ∧
        (r.dispatch 0 file).file.activeRule = none := by
  intro context first second tokens file
  let es : List (RegisteredRule Nat) :=
    [⟨⟨"A".toList, "First".toList⟩, [.tag], first⟩,
      ⟨⟨"B".toList, "Second".toList⟩, [.space, .tag], second⟩]
  have hes : ∀ e ∈ es, e.IsEntry := by
    intro e he
    simp only [es, List.mem_cons, List.not_mem_nil, or_false] at he
    rcases he with rfl | rfl <;> exact ⟨by cbv, rfl, by simp⟩
  have hr : Registry.ofRules [.file first, .file second] context = .ok (.ofEntries es) :=
    Registry.ofRules_map_file context hes
  obtain ⟨calls, hrecorded, -, hfollows, -, hentered, hleft⟩ :=
    dispatch_order hr (show file.tokens = some tokens from rfl) 0
  have hcalls : calls.map (fun c => (c.position, c.callee.index)) =
      [(0, 0), (2, 0), (2, 1), (3, 0)] := by
    have hseen : (((Registry.ofEntries es).recorded.dispatch (0, []) file).world.2.filterMap
        Call.file?).map (fun c => (c.position, c.callee.index)) =
          [(0, 0), (2, 0), (2, 1), (3, 0)] := by decide +kernel
    rw [← hseen, hrecorded, Dispatched.recording, Call.filterMap_file?]
  have hending : ((Registry.ofEntries es).dispatch 0 file).ending =
      .failed (.tokensReleased "b.tpl".toList) := by decide +kernel
  have hne : calls ≠ [] := by
    rintro rfl
    exact absurd hcalls (by decide)
  rw [hending] at hfollows
  exact ⟨_, hr, rfl, rfl, calls, hcalls, hfollows, hentered, hleft hne (by rw [hending]; rfl)⟩

end TemplateLint
