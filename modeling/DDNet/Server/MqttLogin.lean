/-
A login over the broker (`CMqtt::RequestLogin`, `engine/server/mqtt.cpp`).

`RequestLogin` publishes a request and registers the handler of the response after that, while the response is
handled on the thread of the client library.  A step is an access to the map of the callbacks, or a call of the
library that has returned; the calls of the library succeed, and the connection stays.  The messages come one
after the other to the callback of the library.

Until the handler is registered, the map has the callback that `PublishWithResponse` has set, which only prints
the response.  So the response is handled if and only if it is not given to the callback before that
(`run_handles_iff`).
-/
import Mathlib.Logic.Function.Basic
import Mathlib.Order.Basic
import Mathlib.Tactic.Common

namespace DDNet

/-- The callbacks for a response: the one of `PublishWithResponse`, and the one of `RequestLogin`. -/
inductive ResponseHandler where
  | print
  | login
deriving DecidableEq

/-- What is next in `RequestLogin`. -/
inductive RequestThread where
  | subscribe
  | addCallback
  | publish
  /-- The request is published, and `wait` has not returned. -/
  | wait
  | waitForResponse
  | done
deriving DecidableEq

/-- What is next in the message callback of the library. -/
inductive CallbackThread where
  | idle
  | find (topic payload : List UInt8)
  | invoke (topic payload : List UInt8)
  | unsubscribe (topic : List UInt8)
  | erase (topic : List UInt8)
deriving DecidableEq

/-- The state of a login: `answered` is the response that has been delivered, and `invoked` has the calls of
the callbacks. -/
structure MqttLogin where
  callbacks : List UInt8 → Option ResponseHandler
  request : RequestThread
  callback : CallbackThread
  answered : Option (List UInt8)
  invoked : List (List UInt8 × ResponseHandler × List UInt8)

inductive LoginAction where
  | request
  | callback
  /-- The response is delivered. -/
  | answer (payload : List UInt8)
  /-- A message with another topic is delivered. -/
  | other (topic payload : List UInt8)

namespace MqttLogin

/-- `RequestLogin` begins. -/
def init (callbacks : List UInt8 → Option ResponseHandler) : MqttLogin where
  callbacks := callbacks
  request := .subscribe
  callback := .idle
  answered := none
  invoked := []

/-- The request is published. -/
def Published (request : RequestThread) : Prop :=
  request = .wait ∨ request = .waitForResponse ∨ request = .done

instance (request : RequestThread) : Decidable (Published request) :=
  inferInstanceAs (Decidable (_ ∨ _))

/-- The next step of the message callback. -/
def callbackStep (login : MqttLogin) : Option MqttLogin :=
  match login.callback with
  | .idle => none
  | .find topic payload =>
      if (login.callbacks topic).isSome then some { login with callback := .invoke topic payload }
      else some { login with callback := .idle }
  | .invoke topic payload =>
      (login.callbacks topic).map fun handler => { login with
        invoked := login.invoked ++ [(topic, handler, payload)]
        callback := .unsubscribe topic }
  | .unsubscribe topic => some { login with callback := .erase topic }
  | .erase topic => some { login with callbacks := Function.update login.callbacks topic none, callback := .idle }

section

variable (responseTopic : List UInt8)

/-- The next step of `RequestLogin`. -/
def requestStep (login : MqttLogin) : Option MqttLogin :=
  match login.request with
  | .subscribe => some { login with request := .addCallback }
  | .addCallback => some { login with
      callbacks := Function.update login.callbacks responseTopic (some .print), request := .publish }
  | .publish => some { login with request := .wait }
  | .wait => some { login with request := .waitForResponse }
  | .waitForResponse => some { login with
      callbacks := Function.update login.callbacks responseTopic (some .login), request := .done }
  | .done => none

/-- A step; `none` if it cannot be taken. -/
def step (login : MqttLogin) : LoginAction → Option MqttLogin
  | .request => requestStep responseTopic login
  | .callback => login.callbackStep
  | .answer payload =>
      if Published login.request ∧ login.answered = none ∧ login.callback = .idle then
        some { login with answered := some payload, callback := .find responseTopic payload }
      else
        none
  | .other topic payload =>
      if topic ≠ responseTopic ∧ login.callback = .idle then some { login with callback := .find topic payload }
      else none

/-- A run. -/
def run (login : MqttLogin) : List LoginAction → Option MqttLogin
  | [] => some login
  | action :: actions => (step responseTopic login action).bind fun login => run login actions

/-- The responses that the login handler has got. -/
def handled (login : MqttLogin) : List (List UInt8) :=
  login.invoked.filterMap fun call =>
    if call.1 = responseTopic ∧ call.2.1 = .login then some call.2.2 else none

/-- The callback for the response is called only after `WaitForResponse` has registered the handler. -/
def RegisteredFirst : MqttLogin → List LoginAction → Prop
  | _, [] => True
  | login, action :: actions =>
      (action = .callback → (∃ payload, login.callback = .invoke responseTopic payload) → login.request = .done) ∧
        ∀ login' ∈ step responseTopic login action, RegisteredFirst login' actions

/-! ### The invariant -/

/-- The callback for the response until it is called. -/
def registered : RequestThread → Option ResponseHandler
  | .subscribe => none
  | .addCallback => none
  | .publish => some .print
  | .wait => some .print
  | .waitForResponse => some .print
  | .done => some .login

/-- The response is delivered, and its callback not yet called. -/
def Pending (login : MqttLogin) (payload : List UInt8) : Prop :=
  login.callback = .find responseTopic payload ∨ login.callback = .invoke responseTopic payload

/-- The callback thread is not at a message with the topic of the response. -/
def Elsewhere : CallbackThread → Prop
  | .idle => True
  | .find topic _ => topic ≠ responseTopic
  | .invoke topic _ => topic ≠ responseTopic
  | .unsubscribe topic => topic ≠ responseTopic
  | .erase topic => topic ≠ responseTopic

/-- As long as the response is not given to its callback, the callback is the registered one, and nothing has
been handled. -/
structure Inv (login : MqttLogin) : Prop where
  unanswered : login.answered = none → login.callbacks responseTopic = registered login.request ∧
    login.handled responseTopic = [] ∧ Elsewhere responseTopic login.callback
  pending : ∀ payload, login.Pending responseTopic payload → login.answered = some payload ∧
    login.callbacks responseTopic = registered login.request ∧ login.handled responseTopic = []
  answered : ∀ payload, login.answered = some payload → Published login.request

variable {responseTopic : List UInt8}

lemma init_inv {callbacks : List UInt8 → Option ResponseHandler} (hnew : callbacks responseTopic = none) :
    Inv responseTopic (init callbacks) where
  unanswered _ := ⟨hnew, rfl, trivial⟩
  pending _ h := by rcases h with h | h <;> exact absurd h nofun
  answered _ h := absurd h nofun

/-- A step of `RequestLogin` registers the callback of its next place. -/
lemma requestStep_spec {login login' : MqttLogin} (hstep : requestStep responseTopic login = some login') :
    (login.callbacks responseTopic = registered login.request →
      login'.callbacks responseTopic = registered login'.request) ∧
    (Published login.request → Published login'.request) ∧ login'.callback = login.callback ∧
      login'.answered = login.answered ∧ login'.invoked = login.invoked := by
  rw [requestStep] at hstep
  cases hplace : login.request with
  | subscribe | publish | wait =>
    rw [hplace] at hstep
    obtain rfl := Option.some.inj hstep
    refine ⟨fun h => h, ?_, rfl, rfl, rfl⟩
    simp [Published]
  | addCallback | waitForResponse =>
    rw [hplace] at hstep
    obtain rfl := Option.some.inj hstep
    refine ⟨fun _ => Function.update_self _ _ _, ?_, rfl, rfl, rfl⟩
    simp [Published]
  | done =>
    rw [hplace] at hstep
    exact absurd hstep nofun

lemma Inv.requestStep {login login' : MqttLogin} (h : Inv responseTopic login)
    (hstep : requestStep responseTopic login = some login') : Inv responseTopic login' := by
  obtain ⟨hregistered, hpublished, hcallback, hanswered, hinvoked⟩ := requestStep_spec hstep
  have hhandled : login'.handled responseTopic = login.handled responseTopic := by
    rw [handled, hinvoked]
    rfl
  constructor
  · intro hnone
    rw [hanswered] at hnone
    obtain ⟨hcallbacks, hnothing, hplace⟩ := h.unanswered hnone
    rw [hhandled, hcallback]
    exact ⟨hregistered hcallbacks, hnothing, hplace⟩
  · intro payload hpending
    rw [Pending, hcallback] at hpending
    obtain ⟨hsome, hcallbacks, hnothing⟩ := h.pending payload hpending
    rw [hanswered, hhandled]
    exact ⟨hsome, hregistered hcallbacks, hnothing⟩
  · intro payload hsome
    rw [hanswered] at hsome
    exact hpublished (h.answered payload hsome)

lemma callbackStep_answered {login login' : MqttLogin} (hstep : login.callbackStep = some login') :
    login'.answered = login.answered := by
  rw [callbackStep] at hstep
  cases hcallback : login.callback with
  | idle =>
    rw [hcallback] at hstep
    exact absurd hstep nofun
  | find topic payload =>
    rw [hcallback] at hstep
    dsimp only at hstep
    split_ifs at hstep <;> obtain rfl := Option.some.inj hstep <;> rfl
  | invoke topic payload =>
    rw [hcallback] at hstep
    obtain ⟨handler, -, rfl⟩ := Option.map_eq_some_iff.1 hstep
    rfl
  | unsubscribe topic | erase topic =>
    rw [hcallback] at hstep
    obtain rfl := Option.some.inj hstep
    rfl

/-- A call of a callback for another topic. -/
lemma handled_append_of_ne {login : MqttLogin} {topic payload : List UInt8} {handler : ResponseHandler}
    (hne : topic ≠ responseTopic) (callback : CallbackThread) :
    handled responseTopic { login with invoked := login.invoked ++ [(topic, handler, payload)], callback := callback } =
      login.handled responseTopic := by
  rw [handled, List.filterMap_append]
  simp [hne, handled]

lemma handled_append {login : MqttLogin} {payload : List UInt8} {handler : ResponseHandler}
    (callback : CallbackThread) :
    handled responseTopic
        { login with invoked := login.invoked ++ [(responseTopic, handler, payload)], callback := callback } =
      login.handled responseTopic ++ if handler = .login then [payload] else [] := by
  rw [handled, List.filterMap_append]
  congr 1
  cases handler <;> simp

/-- A step of the message callback at a message with another topic. -/
lemma callbackStep_elsewhere {login login' : MqttLogin} (hstep : login.callbackStep = some login')
    (hplace : Elsewhere responseTopic login.callback) :
    login'.callbacks responseTopic = login.callbacks responseTopic ∧ Elsewhere responseTopic login'.callback := by
  rw [callbackStep] at hstep
  cases hcallback : login.callback with
  | idle =>
    rw [hcallback] at hstep
    exact absurd hstep nofun
  | find topic payload =>
    rw [hcallback] at hstep hplace
    dsimp only at hstep
    split_ifs at hstep <;> obtain rfl := Option.some.inj hstep
    · exact ⟨rfl, hplace⟩
    · exact ⟨rfl, trivial⟩
  | invoke topic payload =>
    rw [hcallback] at hstep hplace
    obtain ⟨handler, -, rfl⟩ := Option.map_eq_some_iff.1 hstep
    exact ⟨rfl, hplace⟩
  | unsubscribe topic =>
    rw [hcallback] at hstep hplace
    obtain rfl := Option.some.inj hstep
    exact ⟨rfl, hplace⟩
  | erase topic =>
    rw [hcallback] at hstep hplace
    obtain rfl := Option.some.inj hstep
    exact ⟨Function.update_of_ne (Ne.symm hplace) _ _, trivial⟩

/-- A step of the message callback that does not concern a response that is pending. -/
lemma callbackStep_notPending {login login' : MqttLogin} (hstep : login.callbackStep = some login')
    (hnot : ∀ payload, ¬ login.Pending responseTopic payload) :
    login'.handled responseTopic = login.handled responseTopic ∧
      (∀ payload, ¬ login'.Pending responseTopic payload) ∧
      login'.answered = login.answered ∧ login'.request = login.request := by
  rw [callbackStep] at hstep
  cases hcallback : login.callback with
  | idle =>
    rw [hcallback] at hstep
    exact absurd hstep nofun
  | find topic payload =>
    have hne : topic ≠ responseTopic := by
      rintro rfl
      exact hnot payload (.inl hcallback)
    rw [hcallback] at hstep
    dsimp only at hstep
    split_ifs at hstep <;> obtain rfl := Option.some.inj hstep
    · refine ⟨rfl, ?_, rfl, rfl⟩
      rintro payload' (h | h)
      · exact absurd h nofun
      · exact hne (CallbackThread.invoke.inj h).1
    · refine ⟨rfl, ?_, rfl, rfl⟩
      rintro payload' (h | h) <;> exact absurd h nofun
  | invoke topic payload =>
    have hne : topic ≠ responseTopic := by
      rintro rfl
      exact hnot payload (.inr hcallback)
    rw [hcallback] at hstep
    obtain ⟨handler, -, rfl⟩ := Option.map_eq_some_iff.1 hstep
    refine ⟨handled_append_of_ne hne _, ?_, rfl, rfl⟩
    rintro payload' (h | h) <;> exact absurd h nofun
  | unsubscribe topic | erase topic =>
    rw [hcallback] at hstep
    obtain rfl := Option.some.inj hstep
    refine ⟨rfl, ?_, rfl, rfl⟩
    rintro payload' (h | h) <;> exact absurd h nofun

/-- A step of the message callback at the response: it is given to the registered callback. -/
lemma Inv.callbackStep_pending {login login' : MqttLogin} (h : Inv responseTopic login)
    (hstep : login.callbackStep = some login') {payload : List UInt8} (hpending : login.Pending responseTopic payload) :
    login'.answered = login.answered ∧ login'.request = login.request ∧
      (login'.Pending responseTopic payload ∧ login'.callbacks = login.callbacks ∧
          login'.handled responseTopic = [] ∧ login.callback ≠ .invoke responseTopic payload ∨
        login.callback = .invoke responseTopic payload ∧ (∀ payload', ¬ login'.Pending responseTopic payload') ∧
          login'.handled responseTopic = if login.request = .done then [payload] else []) := by
  obtain ⟨hanswered, hcallbacks, hnothing⟩ := h.pending payload hpending
  have hpublished := h.answered payload hanswered
  rw [callbackStep] at hstep
  rcases hpending with hplace | hplace
  · have hsome : (login.callbacks responseTopic).isSome := by
      rw [hcallbacks]
      rcases hpublished with h | h | h <;> rw [h] <;> rfl
    rw [hplace] at hstep
    dsimp only at hstep
    rw [if_pos hsome] at hstep
    obtain rfl := Option.some.inj hstep
    exact ⟨rfl, rfl, .inl ⟨.inr rfl, rfl, hnothing, by rw [hplace]; nofun⟩⟩
  · rw [hplace] at hstep
    obtain ⟨handler, hhandler, rfl⟩ := Option.map_eq_some_iff.1 hstep
    refine ⟨rfl, rfl, .inr ⟨hplace, ?_, ?_⟩⟩
    · rintro payload' (h | h) <;> exact absurd h nofun
    · rw [handled_append, hnothing, List.nil_append]
      rw [hcallbacks] at hhandler
      rcases hpublished with h | h | h <;> rw [h] at hhandler ⊢ <;> obtain rfl := Option.some.inj hhandler <;> rfl

lemma Pending.unique {login : MqttLogin} {payload payload' : List UInt8} (h : login.Pending responseTopic payload)
    (h' : login.Pending responseTopic payload') : payload' = payload := by
  rcases h with h | h <;> rcases h' with h' | h' <;> rw [h] at h'
  · exact (CallbackThread.find.inj h').2.symm
  · exact absurd h' nofun
  · exact absurd h' nofun
  · exact (CallbackThread.invoke.inj h').2.symm

lemma Inv.callbackStep {login login' : MqttLogin} (h : Inv responseTopic login)
    (hstep : login.callbackStep = some login') : Inv responseTopic login' := by
  by_cases hpending : ∃ payload, login.Pending responseTopic payload
  · obtain ⟨payload, hpending⟩ := hpending
    obtain ⟨hsome, hcallbacks, -⟩ := h.pending payload hpending
    obtain ⟨hanswered, hrequest, hcase⟩ := h.callbackStep_pending hstep hpending
    constructor
    · intro hnone
      rw [hanswered, hsome] at hnone
      exact absurd hnone nofun
    · intro payload' hpending'
      rcases hcase with ⟨hstill, hsame, hnothing, -⟩ | ⟨-, hnot, -⟩
      · obtain rfl := hstill.unique hpending'
        rw [hanswered, hsame, hrequest]
        exact ⟨hsome, hcallbacks, hnothing⟩
      · exact absurd hpending' (hnot payload')
    · rw [hanswered, hrequest]
      exact h.answered
  · have hnot : ∀ payload, ¬ login.Pending responseTopic payload := not_exists.1 hpending
    obtain ⟨hhandled, hnot', hanswered, hrequest⟩ := callbackStep_notPending hstep hnot
    constructor
    · intro hnone
      rw [hanswered] at hnone
      obtain ⟨hcallbacks, hnothing, hplace⟩ := h.unanswered hnone
      obtain ⟨hsame, hplace'⟩ := callbackStep_elsewhere hstep hplace
      rw [hsame, hhandled, hrequest]
      exact ⟨hcallbacks, hnothing, hplace'⟩
    · intro payload hpending'
      exact absurd hpending' (hnot' payload)
    · rw [hanswered, hrequest]
      exact h.answered

lemma Inv.answer {login : MqttLogin} (h : Inv responseTopic login) {payload : List UInt8}
    (hpublished : Published login.request) (hnone : login.answered = none) :
    Inv responseTopic { login with answered := some payload, callback := .find responseTopic payload } := by
  obtain ⟨hcallbacks, hnothing, -⟩ := h.unanswered hnone
  constructor
  · intro hsome
    exact absurd hsome nofun
  · rintro payload' (hplace | hplace)
    · obtain rfl := (CallbackThread.find.inj hplace).2
      exact ⟨rfl, hcallbacks, hnothing⟩
    · exact absurd hplace nofun
  · intro payload' _
    exact hpublished

/-- A message with another topic is not the response. -/
lemma other_notPending {login : MqttLogin} {topic payload : List UInt8} (hne : topic ≠ responseTopic)
    (payload' : List UInt8) : ¬ Pending responseTopic { login with callback := .find topic payload } payload' := by
  rintro (hplace | hplace)
  · exact hne (CallbackThread.find.inj hplace).1
  · exact absurd hplace nofun

lemma Inv.other {login : MqttLogin} (h : Inv responseTopic login) {topic payload : List UInt8}
    (hne : topic ≠ responseTopic) : Inv responseTopic { login with callback := .find topic payload } := by
  constructor
  · intro hnone
    obtain ⟨hcallbacks, hnothing, -⟩ := h.unanswered hnone
    exact ⟨hcallbacks, hnothing, hne⟩
  · intro payload' hpending
    exact absurd hpending (other_notPending hne payload')
  · exact h.answered

lemma Inv.step {login login' : MqttLogin} (h : Inv responseTopic login) {action : LoginAction}
    (hstep : step responseTopic login action = some login') : Inv responseTopic login' := by
  cases action with
  | request => exact h.requestStep hstep
  | callback => exact h.callbackStep hstep
  | answer payload =>
    rw [MqttLogin.step] at hstep
    split_ifs at hstep with hready
    obtain rfl := Option.some.inj hstep
    exact h.answer hready.1 hready.2.1
  | other topic payload =>
    rw [MqttLogin.step] at hstep
    split_ifs at hstep with hready
    obtain rfl := Option.some.inj hstep
    exact h.other hready.1

/-! ### Runs -/

/-- After the response is given to its callback, nothing more is handled. -/
lemma step_over {login login' : MqttLogin} {action : LoginAction} {payload : List UInt8}
    (hstep : step responseTopic login action = some login') (hsome : login.answered = some payload)
    (hnot : ∀ payload, ¬ login.Pending responseTopic payload) :
    login'.answered = some payload ∧ (∀ payload, ¬ login'.Pending responseTopic payload) ∧
      login'.handled responseTopic = login.handled responseTopic := by
  cases action with
  | request =>
    obtain ⟨-, -, hcallback, hanswered, hinvoked⟩ := requestStep_spec hstep
    refine ⟨hanswered.trans hsome, ?_, ?_⟩
    · intro payload'
      rw [Pending, hcallback]
      exact hnot payload'
    · rw [handled, hinvoked]
      rfl
  | callback =>
    obtain ⟨hhandled, hnot', hanswered, -⟩ := callbackStep_notPending hstep hnot
    exact ⟨hanswered.trans hsome, hnot', hhandled⟩
  | answer payload' =>
    rw [step] at hstep
    split_ifs at hstep with hready
    rw [hsome] at hready
    exact absurd hready.2.1 nofun
  | other topic payload' =>
    rw [step] at hstep
    split_ifs at hstep with hready
    obtain rfl := Option.some.inj hstep
    exact ⟨hsome, other_notPending hready.1, rfl⟩

lemma run_cons {login login' : MqttLogin} {action : LoginAction} {actions : List LoginAction}
    (h : run responseTopic login (action :: actions) = some login') :
    ∃ next, step responseTopic login action = some next ∧ run responseTopic next actions = some login' :=
  Option.bind_eq_some_iff.1 h

lemma run_over {actions : List LoginAction} {login login' : MqttLogin} {payload : List UInt8}
    (hrun : run responseTopic login actions = some login') (hsome : login.answered = some payload)
    (hnot : ∀ payload, ¬ login.Pending responseTopic payload) :
    login'.handled responseTopic = login.handled responseTopic ∧ RegisteredFirst responseTopic login actions := by
  induction actions generalizing login with
  | nil =>
    obtain rfl := Option.some.inj hrun
    exact ⟨rfl, trivial⟩
  | cons action actions ih =>
    obtain ⟨next, hstep, hrun⟩ := run_cons hrun
    obtain ⟨hsome', hnot', hhandled⟩ := step_over hstep hsome hnot
    obtain ⟨hhandled', hfirst⟩ := ih hrun hsome' hnot'
    refine ⟨hhandled'.trans hhandled, ?_, ?_⟩
    · rintro - ⟨payload', hplace⟩
      exact absurd (.inr hplace) (hnot payload')
    · intro login'' hstep'
      rw [Option.mem_def, hstep] at hstep'
      obtain rfl := Option.some.inj hstep'
      exact hfirst

/-- The response that has been delivered stays. -/
lemma run_answered {actions : List LoginAction} {login login' : MqttLogin} {payload : List UInt8}
    (hrun : run responseTopic login actions = some login') (hsome : login.answered = some payload) :
    login'.answered = some payload := by
  induction actions generalizing login with
  | nil =>
    obtain rfl := Option.some.inj hrun
    exact hsome
  | cons action actions ih =>
    obtain ⟨next, hstep, hrun⟩ := run_cons hrun
    refine ih hrun ?_
    cases action with
    | request =>
      obtain ⟨-, -, -, hsame, -⟩ := requestStep_spec hstep
      exact hsame.trans hsome
    | callback => exact (callbackStep_answered hstep).trans hsome
    | answer payload' =>
      rw [step] at hstep
      split_ifs at hstep with hready
      rw [hsome] at hready
      exact absurd hready.2.1 nofun
    | other topic payload' =>
      rw [step] at hstep
      split_ifs at hstep with hready
      obtain rfl := Option.some.inj hstep
      exact hsome

/-- A step at which the response is not given to its callback does not matter for the order. -/
lemma registeredFirst_cons {login next : MqttLogin} {action : LoginAction} {actions : List LoginAction}
    (hstep : step responseTopic login action = some next)
    (hnot : action = .callback → ∀ payload, login.callback ≠ .invoke responseTopic payload) :
    RegisteredFirst responseTopic login (action :: actions) ↔ RegisteredFirst responseTopic next actions := by
  rw [RegisteredFirst]
  constructor
  · rintro ⟨-, hall⟩
    exact hall next hstep
  · intro hfirst
    refine ⟨?_, ?_⟩
    · rintro hcallback ⟨payload, hplace⟩
      exact absurd hplace (hnot hcallback payload)
    · intro login'' hstep'
      rw [Option.mem_def, hstep] at hstep'
      obtain rfl := Option.some.inj hstep'
      exact hfirst

/-- A response that is given to the callback in this step. -/
lemma run_invoke {actions : List LoginAction} {login next login' : MqttLogin} {payload : List UInt8}
    (hstep : step responseTopic login .callback = some next) (hrun : run responseTopic next actions = some login')
    (hsome : next.answered = some payload) (hplace : login.callback = .invoke responseTopic payload)
    (hnot : ∀ payload, ¬ next.Pending responseTopic payload)
    (hhandled : next.handled responseTopic = if login.request = .done then [payload] else []) :
    login'.handled responseTopic = [payload] ↔ RegisteredFirst responseTopic login (.callback :: actions) := by
  obtain ⟨hsame, hfirst⟩ := run_over hrun hsome hnot
  rw [hsame, hhandled, RegisteredFirst]
  constructor
  · intro hlist
    refine ⟨fun _ _ => ?_, ?_⟩
    · by_contra hnotDone
      rw [if_neg hnotDone] at hlist
      exact absurd hlist nofun
    · intro login'' hstep'
      rw [Option.mem_def, hstep] at hstep'
      obtain rfl := Option.some.inj hstep'
      exact hfirst
  · rintro ⟨hdone, -⟩
    rw [if_pos (hdone rfl ⟨payload, hplace⟩)]

lemma run_pending {actions : List LoginAction} {login login' : MqttLogin} {payload : List UInt8}
    (h : Inv responseTopic login) (hpending : login.Pending responseTopic payload)
    (hrun : run responseTopic login actions = some login') (hidle : login'.callback = .idle) :
    login'.handled responseTopic = [payload] ↔ RegisteredFirst responseTopic login actions := by
  induction actions generalizing login with
  | nil =>
    obtain rfl := Option.some.inj hrun
    rcases hpending with hplace | hplace <;> rw [hidle] at hplace <;> exact absurd hplace nofun
  | cons action actions ih =>
    obtain ⟨next, hstep, hrest⟩ := run_cons hrun
    have hnext := h.step hstep
    obtain ⟨hsome, -⟩ := h.pending payload hpending
    cases action with
    | request =>
      obtain ⟨-, -, hcallback, -⟩ := requestStep_spec hstep
      rw [registeredFirst_cons hstep nofun]
      refine ih hnext ?_ hrest
      rwa [Pending, hcallback]
    | callback =>
      obtain ⟨hanswered, -, ⟨hstill, -, -, hne⟩ | ⟨hplace, hnot, hhandled⟩⟩ := h.callbackStep_pending hstep hpending
      · have hnever : ∀ payload', login.callback ≠ .invoke responseTopic payload' := by
          intro payload' hplace
          obtain rfl := hpending.unique (.inr hplace)
          exact hne hplace
        rw [registeredFirst_cons hstep fun _ => hnever]
        exact ih hnext hstill hrest
      · exact run_invoke hstep hrest (hanswered.trans hsome) hplace hnot hhandled
    | answer payload' =>
      rw [step] at hstep
      split_ifs at hstep with hready
      rw [hsome] at hready
      exact absurd hready.2.1 nofun
    | other topic payload' =>
      rw [step] at hstep
      split_ifs at hstep with hready
      rcases hpending with hplace | hplace <;> rw [hready.2] at hplace <;> exact absurd hplace nofun

lemma run_unanswered {actions : List LoginAction} {login login' : MqttLogin} {payload : List UInt8}
    (h : Inv responseTopic login) (hnone : login.answered = none)
    (hrun : run responseTopic login actions = some login') (hanswered : login'.answered = some payload)
    (hidle : login'.callback = .idle) :
    login'.handled responseTopic = [payload] ↔ RegisteredFirst responseTopic login actions := by
  induction actions generalizing login with
  | nil =>
    obtain rfl := Option.some.inj hrun
    rw [hnone] at hanswered
    exact absurd hanswered nofun
  | cons action actions ih =>
    obtain ⟨next, hstep, hrest⟩ := run_cons hrun
    have hnext := h.step hstep
    obtain ⟨-, -, hplace⟩ := h.unanswered hnone
    have hnot : ∀ payload, ¬ login.Pending responseTopic payload := by
      rintro payload' (hat | hat) <;> rw [hat] at hplace <;> exact hplace rfl
    cases action with
    | request =>
      obtain ⟨-, -, -, hsame, -⟩ := requestStep_spec hstep
      rw [registeredFirst_cons hstep nofun]
      exact ih hnext (hsame.trans hnone) hrest
    | callback =>
      obtain ⟨-, -, hsame, -⟩ := callbackStep_notPending hstep hnot
      rw [registeredFirst_cons hstep fun _ payload' hat => hnot payload' (.inr hat)]
      exact ih hnext (hsame.trans hnone) hrest
    | answer payload' =>
      rw [registeredFirst_cons hstep nofun]
      rw [step] at hstep
      split_ifs at hstep with hready
      obtain rfl := Option.some.inj hstep
      have hlast : login'.answered = some payload' := run_answered hrest rfl
      rw [hanswered] at hlast
      obtain rfl := Option.some.inj hlast
      exact run_pending hnext (.inl rfl) hrest hidle
    | other topic payload' =>
      rw [registeredFirst_cons hstep nofun]
      rw [step] at hstep
      split_ifs at hstep with hready
      obtain rfl := Option.some.inj hstep
      exact ih hnext hnone hrest

/-- The login handler processes the response, once, if and only if the handler is registered before the response
is given to the callback. -/
theorem run_handles_iff {callbacks : List UInt8 → Option ResponseHandler} (hnew : callbacks responseTopic = none)
    {actions : List LoginAction} {login : MqttLogin} (hrun : run responseTopic (init callbacks) actions = some login)
    {payload : List UInt8} (hanswered : login.answered = some payload) (hidle : login.callback = .idle) :
    login.handled responseTopic = [payload] ↔ RegisteredFirst responseTopic (init callbacks) actions :=
  run_unanswered (init_inv hnew) rfl hrun hanswered hidle

end

/-! ### Two orders -/

/-- The response arrives after `RequestLogin`. -/
def lateResponse : List LoginAction :=
  [.request, .request, .request, .request, .request, .answer [123, 125], .callback, .callback, .callback, .callback]

theorem lateResponse_handles : ∃ login : MqttLogin, run [114] (init fun _ => none) lateResponse = some login ∧
    login.handled [114] = [[123, 125]] ∧ RegisteredFirst [114] (init fun _ => none) lateResponse := by
  have hend : (run [114] (init fun _ => none) lateResponse).map
      (fun login => (login.answered, login.callback, login.handled [114])) =
        some (some [123, 125], .idle, [[123, 125]]) := by decide
  obtain ⟨login, hrun, hlogin⟩ := Option.map_eq_some_iff.1 hend
  simp only [Prod.mk.injEq] at hlogin
  obtain ⟨hanswered, hidle, hhandled⟩ := hlogin
  exact ⟨login, hrun, hhandled, (run_handles_iff rfl hrun hanswered hidle).1 hhandled⟩

/-- The response arrives when `publish` has not returned. -/
def earlyResponse : List LoginAction :=
  [.request, .request, .request, .answer [123, 125], .callback, .callback, .callback, .callback, .request, .request]

/-- The response is printed, and the login handler is not called. -/
theorem earlyResponse_missed : ∃ login : MqttLogin, run [114] (init fun _ => none) earlyResponse = some login ∧
    login.answered = some [123, 125] ∧ login.request = .done ∧ login.callback = .idle ∧
    login.invoked = [([114], .print, [123, 125])] ∧ login.handled [114] = [] := by
  have hend : (run [114] (init fun _ => none) earlyResponse).map (fun login =>
      (login.answered, login.request, login.callback, login.invoked, login.handled [114])) =
        some (some [123, 125], .done, .idle, [([114], .print, [123, 125])], []) := rfl
  obtain ⟨login, hrun, hlogin⟩ := Option.map_eq_some_iff.1 hend
  simp only [Prod.mk.injEq] at hlogin
  exact ⟨login, hrun, hlogin⟩

end MqttLogin

end DDNet
