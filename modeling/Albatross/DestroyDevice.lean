/-
  Albatross/DestroyDevice.lean
  ============================
  **What destroying the devices leaves open** (`device.py`: `destroy_device`, with the
  device's system server clients and their close listeners).

  `destroy_device` takes the clients that a device has cached, closes them and does not
  reconnect.  It closes every connection exactly when each client that has one is cached
  (`destroy_closes_iff`), and nothing that happens later opens another.

  A client that is not cached keeps its connection: the subscriber that the caching of a
  new one replaces, whose loop goes on calling the handlers, one whose subscription raised,
  and a client whose `init()` raised, or the subscription that comes with it.  `owned_iff`
  says which runs have none.
-/
import Albatross.Disconnects

namespace Albatross.Disconnects

open Runs Assoc

/-! ### The code -/

/-- `cached_property.pop(device, 'system_server_subscriber')`, and `close()`. -/
def closeSubscriber (a : Attempt) (d : Device) : Device :=
  match d.systemServerSubscriber with
  | some c => close .notification a c { d with systemServerSubscriber := none }
  | none => d

/-- The same for `system_server_client`. -/
def closeClient (a : Attempt) (d : Device) : Device :=
  match d.systemServerClient with
  | some c => close .notification a c { d with systemServerClient := none }
  | none => d

/-- What `destroy_device` does to one device. -/
def destroy (a b : Attempt) (d : Device) : Device :=
  closeClient b (closeSubscriber a { d with reconnect := false })

/-! ### Owned connections -/

def Cached (d : Device) (c : Nat) : Prop :=
  d.systemServerClient = some c ∨ d.systemServerSubscriber = some c

def Owned (d : Device) : Prop := ∀ c, (d.clients c).sock ≠ none → Cached d c

def Resubscribes (d : Device) (a : Attempt) (c : Nat) : Prop :=
  (d.clients c).kind = .systemServerSubscriber → (d.clients c).listening = true →
    d.reconnect = true → a.connects = true → a.subscribed ≠ .raised

/-- The step leaves no client that has a connection without being cached. -/
def Tidy (d : Device) : Op → Prop
  | .getSystemServerClient inits a b => d.systemServerClient = none → a.connects = true →
      inits = true ∧ (d.autoSubscribeSystemServer = true → b.connects = true ∧
        b.subscribed ≠ .raised ∧
          ∀ c, d.systemServerSubscriber = some c → (d.clients c).sock = none)
  | .getSystemServerSubscriber a => d.systemServerSubscriber = none → a.connects = true →
      a.subscribed ≠ .raised
  | .addCloseListener _ => True
  | .reconnect connects c => connects = true → (d.clients c).sock = none → Cached d c
  | .notify k a => ∀ c, d.registered k = some c → Resubscribes d a c
  | .exit k a => ∀ c, d.serving k = some c → (d.clients c).sock ≠ none → Resubscribes d a c

/-! ### The subscriber that is cached -/

/-- Clients are added and keep their kind, and only a new subscriber comes to be cached as one. -/
structure Grows (d d' : Device) : Prop where
  made : d.made ≤ d'.made
  kind : ∀ c < d.made, (d'.clients c).kind = (d.clients c).kind
  subscriber : ∀ c, d'.systemServerSubscriber = some c → d.systemServerSubscriber = some c ∨
    d.made ≤ c ∧ c < d'.made ∧ (d'.clients c).kind = .systemServerSubscriber

def SubscriberKind (d : Device) : Prop := ∀ c, d.systemServerSubscriber = some c →
  c < d.made ∧ (d.clients c).kind = .systemServerSubscriber

section Grows

variable {d d' d'' : Device} {c : Nat}

theorem Grows.refl (d : Device) : Grows d d := ⟨Nat.le_refl _, fun _ _ => rfl, fun _ => Or.inl⟩

theorem Grows.trans (h : Grows d d') (h' : Grows d' d'') : Grows d d'' := by
  refine ⟨Nat.le_trans h.made h'.made, fun c hc => ?_, fun c hc => ?_⟩
  · exact (h'.kind c (Nat.lt_of_lt_of_le hc h.made)).trans (h.kind c hc)
  · rcases h'.subscriber c hc with hold | ⟨hle, hlt, hkind⟩
    · rcases h.subscriber c hold with hold | ⟨hle, hlt, hkind⟩
      · exact Or.inl hold
      · exact Or.inr ⟨hle, Nat.lt_of_lt_of_le hlt h'.made, (h'.kind c hlt).trans hkind⟩
    · exact Or.inr ⟨Nat.le_trans h.made hle, hlt, hkind⟩

theorem Grows.subscriberKind (h : Grows d d') (hkind : SubscriberKind d) : SubscriberKind d' := by
  intro c hc
  rcases h.subscriber c hc with hold | ⟨_, hlt, hnew⟩
  · obtain ⟨hlt, hold⟩ := hkind c hold
    exact ⟨Nat.lt_of_lt_of_le hlt h.made, (h.kind c hlt).trans hold⟩
  · exact ⟨hlt, hnew⟩

theorem Grows.of_same (hmade : d'.made = d.made)
    (hkind : ∀ c, (d'.clients c).kind = (d.clients c).kind)
    (hsub : d'.systemServerSubscriber = d.systemServerSubscriber ∨
      d'.systemServerSubscriber = none) : Grows d d' := by
  refine ⟨Nat.le_of_eq hmade.symm, fun c _ => hkind c, fun c hc => ?_⟩
  rcases hsub with hsame | hnone
  · exact Or.inl (hsame ▸ hc)
  · rw [hnone] at hc
    cases hc

theorem kind_update (d : Device) (c : Nat) (f : Client) (hf : f.kind = (d.clients c).kind)
    (c' : Nat) : (Function.update d.clients c f c').kind = (d.clients c').kind := by
  by_cases hc : c' = c
  · rw [hc, Function.update_self, hf]
  · rw [Function.update_of_ne hc]

theorem openConnection_grows (c : Nat) (d : Device) : Grows d (openConnection c d) :=
  Grows.of_same rfl (kind_update d c _ rfl) (Or.inl rfl)

theorem reconnect_grows (connects : Bool) (c : Nat) (d : Device) :
    Grows d (reconnect connects c d).2 := by
  unfold reconnect
  split
  · exact Grows.refl d
  · split
    · exact openConnection_grows c d
    · exact Grows.refl d

theorem subscribe_same (s : Subscribed) (c : Nat) (d : Device) :
    (subscribe s c d).2.systemServerClient = d.systemServerClient ∧
      (subscribe s c d).2.systemServerSubscriber = d.systemServerSubscriber := by
  cases s with
  | started =>
    change (startLoop c d).systemServerClient = _ ∧ (startLoop c d).systemServerSubscriber = _
    unfold startLoop
    split <;> exact ⟨rfl, rfl⟩
  | declined => exact ⟨rfl, rfl⟩
  | raised => exact ⟨rfl, rfl⟩

theorem subscribe_grows (s : Subscribed) (c : Nat) (d : Device) : Grows d (subscribe s c d).2 := by
  obtain ⟨hmade, hclients⟩ := subscribe_keeps s c d
  exact Grows.of_same hmade (fun c' => by rw [hclients]) (Or.inl (subscribe_same s c d).2)

theorem uncache_grows (d : Device) : Grows d { d with systemServerSubscriber := none } :=
  Grows.of_same rfl (fun _ => rfl) (Or.inr rfl)

theorem listener_grows (a : Attempt) (c : Nat) (d : Device) : Grows d (listener a c d) := by
  have hrec := reconnect_grows a.connects c d
  unfold listener
  split
  · unfold onSystemClientClose
    split
    · split
      · next d' heq => rw [heq] at hrec; exact hrec
      · next d' heq =>
        rw [heq] at hrec
        exact hrec.trans (Grows.of_same rfl (fun _ => rfl) (Or.inl rfl))
    · exact Grows.refl d
  · unfold onSystemSubscribeClose
    split
    · split
      · next d' heq =>
        rw [heq] at hrec
        have hsub := subscribe_grows a.subscribed c d'
        split
        · next d'' heq' => rw [heq'] at hsub; exact hrec.trans hsub
        · next d'' heq' =>
          rw [heq'] at hsub
          exact (hrec.trans hsub).trans (uncache_grows d'')
      · next d' heq => rw [heq] at hrec; exact hrec.trans (uncache_grows d')
    · exact uncache_grows d

theorem close_grows (cause : Cause) (a : Attempt) (c : Nat) (d : Device) :
    Grows d (close cause a c d) := by
  unfold close
  split
  · exact Grows.refl d
  · next k _ =>
    have hdrop : Grows d (drop cause k c d) :=
      Grows.of_same rfl (kind_update d c _ rfl) (Or.inl rfl)
    dsimp only
    split
    · refine (hdrop.trans (listener_grows a c _)).trans ?_
      exact Grows.of_same rfl (kind_update _ c _ rfl) (Or.inl rfl)
    · exact hdrop

theorem create_grows (kind : Kind) (listening : Bool) (d : Device) :
    Grows d (create kind listening d) :=
  ⟨Nat.le_succ _, fun _ hc => create_kind_of_lt kind listening hc, fun _ => Or.inl⟩

theorem newSubscriber_grows (a : Attempt) (d : Device) : Grows d (newSubscriber a d).2 := by
  have hcreate := create_grows .systemServerSubscriber true d
  have hkind := create_kind .systemServerSubscriber true d
  have hsub := subscribe_grows a.subscribed d.made (create .systemServerSubscriber true d)
  unfold newSubscriber
  split
  · split
    · next d' heq =>
      rw [heq] at hsub
      have hnew := hcreate.trans hsub
      refine ⟨hnew.made, hnew.kind, fun c hc => ?_⟩
      cases hc
      have hlt : d.made < (create .systemServerSubscriber true d).made := Nat.lt_succ_self _
      exact Or.inr ⟨Nat.le_refl _, Nat.lt_of_lt_of_le hlt hsub.made, (hsub.kind _ hlt).trans hkind⟩
    · next d' heq =>
      rw [heq] at hsub
      exact hcreate.trans hsub
  · exact Grows.refl d

theorem cacheClient_grows (d : Device) (c : Nat) :
    Grows d { d with systemServerClient := some c } :=
  Grows.of_same rfl (fun _ => rfl) (Or.inl rfl)

theorem getSystemServerClient_grows (inits : Bool) (a b : Attempt) (d : Device) :
    Grows d (getSystemServerClient inits a b d) := by
  have hcreate := create_grows .systemServerClient inits d
  have hnew := newSubscriber_grows b (create .systemServerClient inits d)
  unfold getSystemServerClient
  split
  · exact Grows.refl d
  · split
    · dsimp only
      split
      · split
        · split
          · next d' heq =>
            rw [heq] at hnew
            exact (hcreate.trans hnew).trans (cacheClient_grows d' _)
          · next d' heq => rw [heq] at hnew; exact hcreate.trans hnew
        · exact hcreate.trans (cacheClient_grows _ _)
      · exact hcreate
    · exact Grows.refl d

theorem step_grows {op : Op} (h : step d op = some d') : Grows d d' := by
  cases step_cases h with
  | client inits a b => exact getSystemServerClient_grows inits a b d
  | subscriber a =>
    unfold getSystemServerSubscriber
    split
    · exact Grows.refl d
    · exact newSubscriber_grows a d
  | addCloseListener _ => exact Grows.of_same rfl (kind_update d _ _ rfl) (Or.inl rfl)
  | reconnect connects _ => exact reconnect_grows connects _ d
  | notify a _ => exact close_grows _ a _ d
  | unheard a _ => exact Grows.refl d
  | exit a _ =>
    refine Grows.trans ?_ (close_grows _ a _ _)
    exact Grows.of_same rfl (fun _ => rfl) (Or.inl rfl)

end Grows

/-! ### Keeping every connection owned -/

/-- What is cached is of its kind, and was made. -/
structure Kinds (d : Device) : Prop where
  client : ∀ c, d.systemServerClient = some c →
    c < d.made ∧ (d.clients c).kind = .systemServerClient
  subscriber : SubscriberKind d

section Owned

variable {d d' : Device} {c : Nat}

theorem Kinds.client_of_subscriber (h : Kinds d)
    (hkind : (d.clients c).kind = .systemServerClient) : d.systemServerSubscriber ≠ some c := by
  intro hc
  rw [(h.subscriber c hc).2] at hkind
  cases hkind

theorem Kinds.subscriber_of_client (h : Kinds d)
    (hkind : (d.clients c).kind = .systemServerSubscriber) : d.systemServerClient ≠ some c := by
  intro hc
  rw [(h.client c hc).2] at hkind
  cases hkind

theorem Owned.congr (hsock : ∀ c, (d'.clients c).sock = (d.clients c).sock)
    (hclient : d'.systemServerClient = d.systemServerClient)
    (hsub : d'.systemServerSubscriber = d.systemServerSubscriber) : Owned d' ↔ Owned d := by
  unfold Owned Cached
  simp only [hsock, hclient, hsub]

theorem sock_update (d : Device) (c : Nat) (f : Client) (hf : f.sock = (d.clients c).sock)
    (c' : Nat) : (Function.update d.clients c f c').sock = (d.clients c').sock := by
  by_cases hc : c' = c
  · rw [hc, Function.update_self, hf]
  · rw [Function.update_of_ne hc]

theorem openConnection_sock (c c' : Nat) (d : Device) :
    ((openConnection c d).clients c').sock = if c' = c then some d.opened
      else (d.clients c').sock := by
  change (Function.update d.clients c _ c').sock = _
  by_cases hc : c' = c
  · rw [hc, Function.update_self, if_pos rfl]
  · rw [Function.update_of_ne hc, if_neg hc]

theorem openConnection_owned (h : Owned d) (c : Nat) :
    Owned (openConnection c d) ↔ Cached d c := by
  constructor
  · intro hown
    refine hown c ?_
    rw [openConnection_sock, if_pos rfl]
    exact Option.some_ne_none _
  · intro hc c' hsock
    rw [openConnection_sock] at hsock
    split at hsock
    · next heq => exact heq ▸ hc
    · exact h c' hsock

theorem reconnect_owned (h : Owned d) (connects : Bool) (c : Nat) :
    Owned (reconnect connects c d).2 ↔
      (connects = true → (d.clients c).sock = none → Cached d c) := by
  unfold reconnect
  split
  · next k hk =>
    rw [hk]
    exact iff_of_true h fun _ hnone => by cases hnone
  · next hnone =>
    split
    · next hconnects =>
      rw [openConnection_owned h]
      exact ⟨fun hc _ _ => hc, fun hc => hc hconnects hnone⟩
    · next hnot => exact iff_of_true h fun hconnects => absurd hconnects hnot

theorem subscribe_owned (s : Subscribed) (c : Nat) : Owned (subscribe s c d).2 ↔ Owned d := by
  obtain ⟨hclient, hsub⟩ := subscribe_same s c d
  refine Owned.congr (fun c' => ?_) hclient hsub
  rw [(subscribe_keeps s c d).2]

theorem Owned.uncacheClient (h : Owned d)
    (hno : ∀ c, d.systemServerClient = some c → (d.clients c).sock = none) :
    Owned { d with systemServerClient := none } := by
  intro c hsock
  rcases h c hsock with hc | hc
  · exact absurd (hno c hc) hsock
  · exact Or.inr hc

theorem Owned.uncacheSubscriber (h : Owned d)
    (hno : ∀ c, d.systemServerSubscriber = some c → (d.clients c).sock = none) :
    Owned { d with systemServerSubscriber := none } := by
  intro c hsock
  rcases h c hsock with hc | hc
  · exact Or.inl hc
  · exact absurd (hno c hc) hsock

/-! #### Close listeners -/

theorem onSystemClientClose_owned (hc : d.systemServerClient = some c)
    (hnone : (d.clients c).sock = none) (h : Owned d) (a : Attempt) :
    Owned (onSystemClientClose a c d) := by
  unfold onSystemClientClose reconnect
  rw [hnone]
  split
  · cases a.connects with
    | true => exact (openConnection_owned h c).mpr (Or.inl hc)
    | false =>
      refine h.uncacheClient fun c' hc' => ?_
      cases hc.symm.trans hc'
      exact hnone
  · exact h

theorem onSystemSubscribeClose_owned (hkinds : Kinds d) (hc : d.systemServerSubscriber = some c)
    (hnone : (d.clients c).sock = none) (h : Owned d) (a : Attempt) :
    Owned (onSystemSubscribeClose a c d) ↔
      (d.reconnect = true → a.connects = true → a.subscribed ≠ .raised) := by
  have huncached : Owned { d with systemServerSubscriber := none } := by
    refine h.uncacheSubscriber fun c' hc' => ?_
    cases hc.symm.trans hc'
    exact hnone
  have hopen : Owned (openConnection c d) := (openConnection_owned h c).mpr (Or.inr hc)
  unfold onSystemSubscribeClose reconnect
  rw [hnone]
  cases hrec : d.reconnect with
  | false => exact iff_of_true huncached fun hno => by cases hno
  | true =>
    cases hcon : a.connects with
    | false => exact iff_of_true huncached fun _ hno => by cases hno
    | true =>
      cases hsub : a.subscribed with
      | started =>
        refine iff_of_true ((subscribe_owned .started c).mpr hopen) fun _ _ hno => ?_
        cases hno
      | declined =>
        refine iff_of_true hopen fun _ _ hno => ?_
        cases hno
      | raised =>
        refine iff_of_false (fun hown => ?_) fun hno => hno rfl rfl rfl
        -- connected again and no longer cached
        have hsock : ((openConnection c d).clients c).sock ≠ none := by
          rw [openConnection_sock, if_pos rfl]
          exact Option.some_ne_none _
        rcases hown c hsock with hclient | hsubscriber
        · exact hkinds.subscriber_of_client (hkinds.subscriber c hc).2 hclient
        · cases hsubscriber

theorem drop_sock (cause : Cause) (k c c' : Nat) (d : Device) :
    ((drop cause k c d).clients c').sock = if c' = c then none else (d.clients c').sock := by
  change (Function.update d.clients c _ c').sock = _
  by_cases hc : c' = c
  · rw [hc, Function.update_self, if_pos rfl]
  · rw [Function.update_of_ne hc, if_neg hc]

theorem drop_owned (h : Owned d) (cause : Cause) (k c : Nat) : Owned (drop cause k c d) := by
  intro c' hsock
  rw [drop_sock] at hsock
  split at hsock
  · exact absurd rfl hsock
  · exact h c' hsock

theorem drop_kinds (h : Kinds d) (cause : Cause) (k c : Nat) : Kinds (drop cause k c d) := by
  refine ⟨fun c' hc' => ?_, (Grows.of_same rfl (kind_update d c _ rfl) (Or.inl rfl)
    : Grows d (drop cause k c d)).subscriberKind h.subscriber⟩
  obtain ⟨hlt, hkind⟩ := h.client c' hc'
  exact ⟨hlt, (kind_update d c { d.clients c with sock := none } rfl c').trans hkind⟩

theorem listener_owned (hkinds : Kinds d) (hcached : Cached d c) (hnone : (d.clients c).sock = none)
    (h : Owned d) (a : Attempt) : Owned (listener a c d) ↔
      ((d.clients c).kind = .systemServerSubscriber → d.reconnect = true → a.connects = true →
        a.subscribed ≠ .raised) := by
  unfold listener
  cases hkind : (d.clients c).kind with
  | systemServerClient =>
    have hc := hcached.resolve_right (hkinds.client_of_subscriber hkind)
    exact iff_of_true (onSystemClientClose_owned hc hnone h a) fun hno => by cases hno
  | systemServerSubscriber =>
    have hc := hcached.resolve_left (hkinds.subscriber_of_client hkind)
    refine (onSystemSubscribeClose_owned hkinds hc hnone h a).trans ?_
    exact ⟨fun hall _ => hall, fun hall => hall rfl⟩

theorem close_owned (hkinds : Kinds d) (h : Owned d) (cause : Cause) (a : Attempt) (c : Nat) :
    Owned (close cause a c d) ↔ ((d.clients c).sock ≠ none → Resubscribes d a c) := by
  unfold close
  split
  · next hnone => exact iff_of_true h fun hne => absurd hnone hne
  · next k hk =>
    have hne : (d.clients c).sock ≠ none := by rw [hk]; exact Option.some_ne_none k
    have hclient : (drop cause k c d).clients c = { d.clients c with sock := none } :=
      Function.update_self _ _ _
    dsimp only
    split
    · next hlistening =>
      rw [hclient] at hlistening
      have hclear : ∀ x : Device, Owned (clearListeners c x) ↔ Owned x := fun x =>
        Owned.congr (sock_update x c _ rfl) rfl rfl
      rw [hclear, listener_owned (drop_kinds hkinds cause k c) (h c hne) (by rw [hclient])
        (drop_owned h cause k c), hclient]
      exact ⟨fun hall _ hkind _ => hall hkind, fun hall hkind => hall hne hkind hlistening⟩
    · next hnot =>
      rw [hclient] at hnot
      exact iff_of_true (drop_owned h cause k c) fun _ _ hlistening => absurd hlistening hnot

/-! #### The cached properties -/

theorem create_sock (kind : Kind) (listening : Bool) (c : Nat) (d : Device) :
    ((create kind listening d).clients c).sock = if c = d.made then some d.opened
      else (d.clients c).sock := by
  change ((openConnection d.made _).clients c).sock = _
  rw [openConnection_sock]
  by_cases hc : c = d.made
  · rw [if_pos hc, if_pos hc]
  · rw [if_neg hc, if_neg hc]
    exact congrArg Client.sock (Function.update_of_ne hc _ _)

theorem not_cached_made (hkinds : Kinds d) : ¬ Cached d d.made := by
  rintro (hc | hc)
  · exact Nat.lt_irrefl _ (hkinds.client _ hc).1
  · exact Nat.lt_irrefl _ (hkinds.subscriber _ hc).1

theorem create_sock_made (kind : Kind) (listening : Bool) (d : Device) :
    ((create kind listening d).clients d.made).sock ≠ none := by
  rw [create_sock, if_pos rfl]
  exact Option.some_ne_none _

theorem not_owned_of_made (hkinds : Kinds d) (hsock : (d'.clients d.made).sock ≠ none)
    (hclient : d'.systemServerClient = d.systemServerClient)
    (hsub : d'.systemServerSubscriber = d.systemServerSubscriber) : ¬ Owned d' := by
  intro hown
  have hcached := hown d.made hsock
  unfold Cached at hcached
  rw [hclient, hsub] at hcached
  exact not_cached_made hkinds hcached

/-- The new subscriber comes to nothing, is left without being cached, or is cached. -/
inductive NewSubscriber (a : Attempt) (d : Device) : Bool × Device → Prop where
  | unconnected : a.connects = false → NewSubscriber a d (false, d)
  | raised : a.connects = true → a.subscribed = .raised →
      NewSubscriber a d (false, create .systemServerSubscriber true d)
  | cached (d' : Device) : a.connects = true → a.subscribed ≠ .raised →
      d'.clients = (create .systemServerSubscriber true d).clients →
      d'.systemServerClient = d.systemServerClient →
      d'.systemServerSubscriber = some d.made → NewSubscriber a d (true, d')

theorem newSubscriber_cases (a : Attempt) (d : Device) :
    NewSubscriber a d (newSubscriber a d) := by
  have hclients := (subscribe_keeps a.subscribed d.made (create .systemServerSubscriber true d)).2
  have hclient := (subscribe_same a.subscribed d.made (create .systemServerSubscriber true d)).1
  unfold newSubscriber
  cases hcon : a.connects with
  | false => exact .unconnected hcon
  | true =>
    cases hsub : a.subscribed with
    | started =>
      rw [hsub] at hclients hclient
      refine .cached _ hcon (fun hno => ?_) hclients hclient rfl
      rw [hsub] at hno
      cases hno
    | declined =>
      refine .cached _ hcon (fun hno => ?_) rfl rfl rfl
      rw [hsub] at hno
      cases hno
    | raised => exact .raised hcon hsub

theorem getSystemServerSubscriber_owned (hkinds : Kinds d) (h : Owned d) (a : Attempt) :
    Owned (getSystemServerSubscriber a d) ↔ Tidy d (.getSystemServerSubscriber a) := by
  unfold getSystemServerSubscriber Tidy
  split
  · next c hc =>
    rw [hc]
    exact iff_of_true h fun hno => by cases hno
  · next hnone =>
    cases hnew : newSubscriber a d with
    | mk done d' =>
      have hcases := newSubscriber_cases a d
      rw [hnew] at hcases
      cases hcases with
      | unconnected hcon =>
        exact iff_of_true h fun _ hyes => by rw [hcon] at hyes; cases hyes
      | raised hcon hraised =>
        refine iff_of_false (not_owned_of_made hkinds (create_sock_made _ _ d) rfl rfl) ?_
        exact fun hall => hall hnone hcon hraised
      | cached _ hcon hsub hclients hclient hcached =>
        refine iff_of_true (fun c hsock => ?_) fun _ _ => hsub
        rw [hclients, create_sock] at hsock
        split at hsock
        · next heq => exact Or.inr (heq ▸ hcached)
        · refine Or.inl ?_
          rw [hclient]
          exact (h c hsock).resolve_right fun hc => by rw [hnone] at hc; cases hc

/-- With a new client and a new subscriber cached, only the subscriber that was cached before may
    be open and of no one. -/
theorem bothCached_owned (hkinds : Kinds d) (h : Owned d) (hnone : d.systemServerClient = none)
    {d' : Device} (hclients : d'.clients = (create .systemServerSubscriber true
      (create .systemServerClient true d)).clients)
    (hcached : d'.systemServerSubscriber = some (create .systemServerClient true d).made) :
    Owned { d' with systemServerClient := some d.made } ↔
      ∀ c, d.systemServerSubscriber = some c → (d.clients c).sock = none := by
  have hsubscriber : ∀ c, (d.clients c).sock ≠ none → d.systemServerSubscriber = some c :=
    fun c hsock => (h c hsock).resolve_left fun hc => by rw [hnone] at hc; cases hc
  have hsock : ∀ c < d.made, (d'.clients c).sock = (d.clients c).sock := by
    intro c hc
    have hne : c ≠ (create .systemServerClient true d).made :=
      Nat.ne_of_lt (Nat.lt_succ_of_lt hc)
    rw [hclients, create_sock, if_neg hne, create_sock, if_neg (Nat.ne_of_lt hc)]
  constructor
  · intro hown c hc
    have hlt := (hkinds.subscriber c hc).1
    by_contra hopen
    rcases hown c (by rw [hsock c hlt]; exact hopen) with hnew | hnew
    · exact Nat.lt_irrefl _ (Option.some.inj hnew ▸ hlt)
    · have hmade : d.made + 1 = c := Option.some.inj (hcached.symm.trans hnew)
      omega
  · intro hold c hopen
    change (d'.clients c).sock ≠ none at hopen
    rw [hclients, create_sock] at hopen
    split at hopen
    · next heq => exact Or.inr (heq ▸ hcached)
    · rw [create_sock] at hopen
      split at hopen
      · next heq => exact Or.inl (congrArg some heq.symm)
      · exact absurd (hold c (hsubscriber c hopen)) hopen

theorem withSubscriber_owned (hkinds : Kinds d) (h : Owned d) (hnone : d.systemServerClient = none)
    (hauto : d.autoSubscribeSystemServer = true) {a : Attempt} (hcon : a.connects = true)
    (b : Attempt) :
    Owned (getSystemServerClient true a b d) ↔ b.connects = true ∧ b.subscribed ≠ .raised ∧
      ∀ c, d.systemServerSubscriber = some c → (d.clients c).sock = none := by
  have hauto' : (create .systemServerClient true d).autoSubscribeSystemServer = true := hauto
  unfold getSystemServerClient
  rw [hnone]
  dsimp only
  rw [if_pos hcon, if_pos rfl, if_pos hauto']
  cases hnew : newSubscriber b (create .systemServerClient true d) with
  | mk done d' =>
    have hcases := newSubscriber_cases b (create .systemServerClient true d)
    rw [hnew] at hcases
    cases hcases with
    | unconnected hno =>
      refine iff_of_false (not_owned_of_made hkinds (create_sock_made _ _ d) rfl rfl) ?_
      rintro ⟨hyes, _⟩
      rw [hno] at hyes
      cases hyes
    | raised _ hraised =>
      refine iff_of_false (not_owned_of_made hkinds ?_ rfl rfl) fun hall => hall.2.1 hraised
      have hne : d.made ≠ (create .systemServerClient true d).made :=
        Nat.ne_of_lt (Nat.lt_succ_self _)
      rw [create_sock, if_neg hne]
      exact create_sock_made _ _ d
    | cached _ hconb hsub hclients _ hcached =>
      exact (bothCached_owned hkinds h hnone hclients hcached).trans
        ⟨fun hold => ⟨hconb, hsub, hold⟩, fun hall => hall.2.2⟩

theorem getSystemServerClient_owned (hkinds : Kinds d) (h : Owned d) (inits : Bool)
    (a b : Attempt) :
    Owned (getSystemServerClient inits a b d) ↔ Tidy d (.getSystemServerClient inits a b) := by
  by_cases hwith : d.systemServerClient = none ∧ a.connects = true ∧ inits = true ∧
      d.autoSubscribeSystemServer = true
  · obtain ⟨hnone, hcon, rfl, hauto⟩ := hwith
    rw [withSubscriber_owned hkinds h hnone hauto hcon b]
    exact ⟨fun hall _ _ => ⟨rfl, fun _ => hall⟩, fun hall => (hall hnone hcon).2 hauto⟩
  unfold getSystemServerClient Tidy
  split
  · next c hc =>
    rw [hc]
    exact iff_of_true h fun hno => by cases hno
  · next hnone =>
    split
    · next hcon =>
      dsimp only
      cases inits with
      | false =>
        refine iff_of_false (not_owned_of_made hkinds (create_sock_made _ _ d) rfl rfl) ?_
        intro hall
        cases (hall hnone hcon).1
      | true =>
        have hauto : d.autoSubscribeSystemServer ≠ true := fun h => hwith ⟨hnone, hcon, rfl, h⟩
        have hauto' : (create .systemServerClient true d).autoSubscribeSystemServer ≠ true := hauto
        rw [if_pos rfl, if_neg hauto']
        refine iff_of_true (fun c hsock => ?_) fun _ _ => ⟨rfl, fun hyes => absurd hyes hauto⟩
        change ((create .systemServerClient true d).clients c).sock ≠ none at hsock
        rw [create_sock] at hsock
        split at hsock
        · next heq => exact Or.inl (congrArg some heq.symm)
        · refine Or.inr ((h c hsock).resolve_left fun hc => ?_)
          rw [hnone] at hc
          cases hc
    · next hcon => exact iff_of_true h fun _ hyes => absurd hyes hcon

/-! #### All steps -/

theorem step_kinds {op : Op} (hinv : Inv d) (hkinds : Kinds d) (h : step d op = some d') :
    Kinds d' :=
  ⟨(step_inv hinv h).client_kind, (step_grows h).subscriberKind hkinds.subscriber⟩

theorem step_owned {op : Op} (hinv : Inv d) (hkinds : Kinds d) (hown : Owned d)
    (h : step d op = some d') : Owned d' ↔ Tidy d op := by
  cases step_cases h with
  | client inits a b => exact getSystemServerClient_owned hkinds hown inits a b
  | subscriber a => exact getSystemServerSubscriber_owned hkinds hown a
  | @addCloseListener c _ =>
    refine iff_of_true (fun c' hsock => hown c' ?_) trivial
    rw [← sock_update d c { d.clients c with listening := true } rfl c']
    exact hsock
  | reconnect connects _ => exact reconnect_owned hown connects _
  | @notify a k c hreg =>
    have hopen : (d.clients c).sock ≠ none := by
      rw [(hinv.registered_iff k c).mp hreg]
      exact Option.some_ne_none k
    rw [close_owned hkinds hown]
    constructor
    · intro hall c' hc'
      cases hreg.symm.trans hc'
      exact hall hopen
    · intro hall _
      exact hall c hreg
  | @unheard a k hreg =>
    refine iff_of_true hown fun c hc => ?_
    rw [hreg] at hc
    cases hc
  | @exit a k c hserving =>
    rw [close_owned (d := { d with serving := Function.update d.serving k none })
      ⟨hkinds.client, hkinds.subscriber⟩ hown]
    constructor
    · intro hall c' hc'
      cases hserving.symm.trans hc'
      exact hall
    · intro hall
      exact hall c hserving

end Owned

theorem kinds_new (reconnect auto : Bool) : Kinds (Device.new reconnect auto) :=
  ⟨fun _ h => (by cases h), fun _ h => (by cases h)⟩

/-- **When no client keeps a connection without being cached**: throughout a run, exactly when
    all its steps are tidy. -/
theorem owned_iff (reconnect auto : Bool) (ops : List Op) :
    (∀ d op d', Takes step (Device.new reconnect auto) ops d op d' → Owned d') ↔
      ∀ d op d', Takes step (Device.new reconnect auto) ops d op d' → Tidy d op := by
  apply forall_takes_iff
  · intro c h
    exact absurd rfl h
  · intro d op d' ht hown
    have hkinds : Inv d ∧ Kinds d := by
      refine ht.before (I := fun x => Inv x ∧ Kinds x)
        ⟨inv_new reconnect auto, kinds_new reconnect auto⟩ ?_
      intro a k b hab ha
      exact ⟨step_inv ha.1 hab.one, step_kinds ha.1 ha.2 hab.one⟩
    exact step_owned hkinds.1 hkinds.2 hown ht.one

/-- A new client replaces the subscriber that was cached. -/
example : ∃ d, run step (Device.new true true)
    [.getSystemServerSubscriber up, .getSystemServerClient true up up] = some d ∧
      (d.clients 0).sock = some 0 ∧ d.serving 0 = some 0 ∧ ¬ Cached d 0 := by
  refine ⟨_, rfl, rfl, rfl, ?_⟩
  rintro (h | h) <;> cases h

/-! ### Destroying -/

/-- What still happens to a device that nobody uses. -/
def Op.Late : Op → Prop
  | .notify _ _ => True
  | .exit _ _ => True
  | _ => False

section Destroy

variable {d d' : Device}

theorem listener_offline (a : Attempt) (c : Nat) (hrec : d.reconnect = false) :
    (listener a c d).clients = d.clients ∧
      (listener a c d).systemServerClient = d.systemServerClient := by
  unfold listener onSystemClientClose onSystemSubscribeClose
  split <;> simp [hrec]

theorem close_sock (cause : Cause) (a : Attempt) (c c' : Nat) (hrec : d.reconnect = false) :
    ((close cause a c d).clients c').sock = if c' = c then none else (d.clients c').sock := by
  unfold close
  split
  · next hnone =>
    split
    · next heq => exact heq ▸ hnone
    · rfl
  · next k hk =>
    have hclear : ∀ x : Device, ((clearListeners c x).clients c').sock = (x.clients c').sock :=
      fun x => sock_update x c { x.clients c with listening := false } rfl c'
    dsimp only
    split
    · rw [hclear, (listener_offline (d := drop cause k c d) a c hrec).1, drop_sock]
    · exact drop_sock cause k c c' d

theorem close_keeps_client (cause : Cause) (a : Attempt) (c : Nat) (hrec : d.reconnect = false) :
    (close cause a c d).systemServerClient = d.systemServerClient := by
  unfold close
  split
  · rfl
  · next k _ =>
    dsimp only
    split
    · exact (listener_offline (d := drop cause k c d) a c hrec).2
    · rfl

theorem if_cached (o : Option Nat) (c c' : Nat) (h : o = some c') (k : Option Nat) :
    (if c = c' then none else k) = if o = some c then none else k := by
  rw [h]
  by_cases hc : c = c'
  · rw [if_pos hc, if_pos (congrArg some hc.symm)]
  · rw [if_neg hc, if_neg fun h => hc (Option.some.inj h).symm]

theorem closeSubscriber_sock (a : Attempt) (c : Nat) (hrec : d.reconnect = false) :
    ((closeSubscriber a d).clients c).sock =
      if d.systemServerSubscriber = some c then none else (d.clients c).sock := by
  unfold closeSubscriber
  split
  · next c' hc' =>
    rw [close_sock (d := { d with systemServerSubscriber := none }) _ a c' c hrec]
    exact if_cached _ c c' hc' _
  · next hnone => rw [hnone, if_neg (by simp)]

theorem closeClient_sock (a : Attempt) (c : Nat) (hrec : d.reconnect = false) :
    ((closeClient a d).clients c).sock =
      if d.systemServerClient = some c then none else (d.clients c).sock := by
  unfold closeClient
  split
  · next c' hc' =>
    rw [close_sock (d := { d with systemServerClient := none }) _ a c' c hrec]
    exact if_cached _ c c' hc' _
  · next hnone => rw [hnone, if_neg (by simp)]

theorem closeSubscriber_keeps (a : Attempt) (hrec : d.reconnect = false) :
    (closeSubscriber a d).reconnect = false ∧
      (closeSubscriber a d).systemServerClient = d.systemServerClient := by
  unfold closeSubscriber
  split
  · next c _ =>
    refine ⟨(close_reconnect _ a c _).trans hrec, ?_⟩
    exact close_keeps_client (d := { d with systemServerSubscriber := none }) _ a c hrec
  · exact ⟨hrec, rfl⟩

theorem destroy_sock (a b : Attempt) (d : Device) (c : Nat) :
    ((destroy a b d).clients c).sock ≠ none ↔ (d.clients c).sock ≠ none ∧ ¬ Cached d c := by
  obtain ⟨hrec, hclient⟩ := closeSubscriber_keeps (d := { d with reconnect := false }) a rfl
  rw [destroy, closeClient_sock b c hrec, closeSubscriber_sock a c rfl, hclient]
  unfold Cached
  by_cases hc : d.systemServerClient = some c
  · simp [hc]
  · by_cases hs : d.systemServerSubscriber = some c
    · simp [hs]
    · simp [hc, hs]

theorem destroy_reconnect (a b : Attempt) (d : Device) : (destroy a b d).reconnect = false := by
  have hrec := (closeSubscriber_keeps (d := { d with reconnect := false }) a rfl).1
  unfold destroy closeClient
  split
  · exact (close_reconnect _ b _ _).trans hrec
  · exact hrec

theorem late_sock {op : Op} (hlate : op.Late) (hrec : d.reconnect = false)
    (h : step d op = some d') :
    d'.reconnect = false ∧ ∀ c, (d.clients c).sock = none → (d'.clients c).sock = none := by
  have hclosed : ∀ (e : Device) (cause : Cause) (a : Attempt) (c : Nat), e.reconnect = false →
      (close cause a c e).reconnect = false ∧
        ∀ c', (e.clients c').sock = none → ((close cause a c e).clients c').sock = none := by
    intro e cause a c he
    refine ⟨(close_reconnect cause a c e).trans he, fun c' hnone => ?_⟩
    rw [close_sock cause a c c' he, hnone, ite_self]
  cases step_cases h with
  | client inits a b => exact absurd hlate id
  | subscriber a => exact absurd hlate id
  | addCloseListener _ => exact absurd hlate id
  | reconnect connects _ => exact absurd hlate id
  | @notify a k c _ => exact hclosed d .notification a c hrec
  | unheard a _ => exact ⟨hrec, fun _ hnone => hnone⟩
  | @exit a k c _ => exact hclosed _ (.loop k) a c hrec

end Destroy

/-- **When destroying a device closes all its connections** for good: exactly when every client
    that has one is cached. -/
theorem destroy_closes_iff (a b : Attempt) (d : Device) :
    (∀ later d', (∀ op ∈ later, op.Late) → run step (destroy a b d) later = some d' →
      ∀ c, (d'.clients c).sock = none) ↔ Owned d := by
  constructor
  · intro hall c hopen
    by_contra hnot
    have hleft := (destroy_sock a b d c).mpr ⟨hopen, hnot⟩
    exact hleft (hall [] _ (fun _ hop => by cases hop) rfl c)
  · intro hown later d' hlate hrun
    have hclosed : ∀ c, ((destroy a b d).clients c).sock = none := by
      intro c
      by_contra hopen
      obtain ⟨hwas, hnot⟩ := (destroy_sock a b d c).mp hopen
      exact hnot (hown c hwas)
    have hkept : d'.reconnect = false ∧ ∀ c, (d'.clients c).sock = none := by
      refine run_invariant (I := fun x => x.reconnect = false ∧ ∀ c, (x.clients c).sock = none)
        ?_ ⟨destroy_reconnect a b d, hclosed⟩ hrun
      intro x op y hop hx hone
      obtain ⟨hrec, hsocks⟩ := late_sock (hlate op hop) hx.1 hone
      exact ⟨hrec, fun c => hsocks c (hx.2 c)⟩
    exact hkept.2

end Albatross.Disconnects
