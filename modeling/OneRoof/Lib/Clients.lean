import OneRoof.Lib.Traces

/-!
# Clients beside a service

A client reacts to what its user does and to the answers of its calls, and may call the service
each time. A call arrives at any time after it was made, or never, and not necessarily before
later ones; an answer reaches the client at any time after it was given, or never; and between
them the service goes on by itself.

A contract says what the calls ask for, what every client knows of the service, and that the
service only adds to it. What one call, one step, one input and one answer keep then holds
after every run, for all clients together.
-/

namespace Clients

open Traces

variable {S L K E R N C I : Type}

structure Client (C I K R : Type) where
  input : I → C → C × List K
  answered : K → R → C → C × List K

/-- A call that arrives gets a number, under which it is answered. -/
structure Service (S L K E R N : Type) where
  step : L → S → S
  take : Nat → E → K → S → S × N
  reply : N → S → Option R

/-- A client, who it is for the service, its calls that have not arrived, and those that have
arrived and whose answers have not come. -/
structure Seat (C K N : Type) where
  who : Nat
  state : C
  sent : List K := []
  served : List (N × K) := []

structure Net (S C K N : Type) where
  service : S
  seats : List (Seat C K N)

inductive Move (L E I : Type) where
  | step (l : L)
  | input (n : Nat) (i : I)
  | deliver (n j : Nat) (e : E)
  | receive (n j : Nat)

def Seat.input (client : Client C I K R) (i : I) (s : Seat C K N) : Seat C K N :=
  { s with state := (client.input i s.state).1, sent := s.sent ++ (client.input i s.state).2 }

/-- The answer of the call at a place has come. -/
def Seat.receive (client : Client C I K R) (j : Nat) (k : K) (r : R) (s : Seat C K N) :
    Seat C K N :=
  { s with
    state := (client.answered k r s.state).1
    sent := s.sent ++ (client.answered k r s.state).2
    served := s.served.eraseIdx j }

variable (client : Client C I K R) (service : Service S L K E R N)

def Net.input (n : Nat) (i : I) (net : Net S C K N) : Net S C K N := match net.seats[n]? with
  | some s => { net with seats := net.seats.set n (s.input client i) }
  | none => net

def Net.deliver (n j : Nat) (e : E) (net : Net S C K N) : Net S C K N := match net.seats[n]? with
  | some s => match s.sent[j]? with
    | some k =>
      { service := (service.take s.who e k net.service).1
        seats := net.seats.set n { s with
          sent := s.sent.eraseIdx j
          served := s.served ++ [((service.take s.who e k net.service).2, k)] } }
    | none => net
  | none => net

def Net.receive (n j : Nat) (net : Net S C K N) : Net S C K N := match net.seats[n]? with
  | some s => match s.served[j]? with
    | some (number, k) => match service.reply number net.service with
      | some r => { net with seats := net.seats.set n (s.receive client j k r) }
      | none => net
    | none => net
  | none => net

def Net.move : Move L E I → Net S C K N → Net S C K N
  | .step l, net => { net with service := service.step l net.service }
  | .input n i, net => net.input client n i
  | .deliver n j e, net => net.deliver service n j e
  | .receive n j, net => net.receive client service n j

/-- What holds between the clients and the service. -/
structure Contract where
  Good : S → Prop
  Le : S → S → Prop
  Allowed : L → Prop
  Asks : Nat → S → K → Prop
  Serves : Nat → S → N → K → Prop
  Knows : Nat → S → C → Prop
  refl : ∀ s, Le s s
  asks_mono : ∀ {who s s' k}, Le s s' → Asks who s k → Asks who s' k
  serves_mono : ∀ {who s s' n k}, Le s s' → Serves who s n k → Serves who s' n k
  knows_mono : ∀ {who s s' x}, Le s s' → Knows who s x → Knows who s' x
  step_good : ∀ {l s}, Good s → Allowed l → Good (service.step l s) ∧ Le s (service.step l s)
  take_good : ∀ {who e k s}, Good s → Asks who s k → Good (service.take who e k s).1 ∧
    Le s (service.take who e k s).1 ∧
    Serves who (service.take who e k s).1 (service.take who e k s).2 k
  input_knows : ∀ {who s x} i, Good s → Knows who s x →
    Knows who s (client.input i x).1 ∧ ∀ k ∈ (client.input i x).2, Asks who s k
  answered_knows : ∀ {who s x n k r}, Good s → Serves who s n k → Asks who s k →
    service.reply n s = some r → Knows who s x →
    Knows who s (client.answered k r x).1 ∧ ∀ k' ∈ (client.answered k r x).2, Asks who s k'

namespace Contract

variable {client service} (𝒞 : Contract client service)

structure Sits (s : S) (seat : Seat C K N) : Prop where
  knows : 𝒞.Knows seat.who s seat.state
  sent : ∀ k ∈ seat.sent, 𝒞.Asks seat.who s k
  served : ∀ c ∈ seat.served, 𝒞.Asks seat.who s c.2 ∧ 𝒞.Serves seat.who s c.1 c.2

structure Holds (net : Net S C K N) : Prop where
  good : 𝒞.Good net.service
  sits : ∀ seat ∈ net.seats, 𝒞.Sits net.service seat

/-- The moves that the service may take by itself. -/
def Meets : Net S C K N → Move L E I → Prop
  | _, .step l => 𝒞.Allowed l
  | _, _ => True

variable {𝒞} {s s' : S} {seat : Seat C K N} {net : Net S C K N}

theorem Sits.later (sits : 𝒞.Sits s seat) (le : 𝒞.Le s s') : 𝒞.Sits s' seat :=
  ⟨𝒞.knows_mono le sits.knows, fun k mem => 𝒞.asks_mono le (sits.sent k mem),
    fun c mem => (sits.served c mem).imp (𝒞.asks_mono le) (𝒞.serves_mono le)⟩

/-- One client moves while the service goes on, the others stay where they are. -/
theorem Holds.reseat (holds : 𝒞.Holds net) (n : Nat) (good : 𝒞.Good s')
    (le : 𝒞.Le net.service s') (sits : 𝒞.Sits s' seat) :
    𝒞.Holds ⟨s', net.seats.set n seat⟩ := by
  refine ⟨good, fun other mem => ?_⟩
  rcases List.mem_or_eq_of_mem_set mem with old | rfl
  · exact (holds.sits other old).later le
  · exact sits

theorem Sits.input (sits : 𝒞.Sits s seat) (good : 𝒞.Good s) (i : I) :
    𝒞.Sits s (seat.input client i) := by
  obtain ⟨knows, asks⟩ := 𝒞.input_knows i good sits.knows
  refine ⟨knows, fun k mem => ?_, sits.served⟩
  rcases List.mem_append.mp mem with old | new
  · exact sits.sent k old
  · exact asks k new

theorem Sits.receive (sits : 𝒞.Sits s seat) (good : 𝒞.Good s) {j : Nat} {n : N} {k : K} {r : R}
    (waits : seat.served[j]? = some (n, k)) (replies : service.reply n s = some r) :
    𝒞.Sits s (seat.receive client j k r) := by
  obtain ⟨asked, serves⟩ := sits.served _ (List.mem_of_getElem? waits)
  obtain ⟨knows, asks⟩ := 𝒞.answered_knows good serves asked replies sits.knows
  refine ⟨knows, fun k' mem => ?_, fun c mem => sits.served c (List.mem_of_mem_eraseIdx mem)⟩
  rcases List.mem_append.mp mem with old | new
  · exact sits.sent k' old
  · exact asks k' new

theorem Holds.deliver (holds : 𝒞.Holds net) (n j : Nat) (e : E) :
    𝒞.Holds (net.deliver service n j e) := by
  unfold Net.deliver
  split
  · rename_i seat here
    have sits := holds.sits seat (List.mem_of_getElem? here)
    split
    · rename_i k waits
      have asks := sits.sent k (List.mem_of_getElem? waits)
      obtain ⟨good, le, serves⟩ : 𝒞.Good (service.take seat.who e k net.service).1 ∧ _ ∧ _ :=
        𝒞.take_good holds.good asks
      have later := sits.later le
      refine holds.reseat n good le ⟨later.knows, fun k' mem => ?_, fun c mem => ?_⟩
      · exact later.sent k' (List.mem_of_mem_eraseIdx mem)
      · rcases List.mem_append.mp mem with old | new
        · exact later.served c old
        · rw [List.mem_singleton.mp new]
          exact ⟨𝒞.asks_mono le asks, serves⟩
    · exact holds
  · exact holds

theorem Holds.move (holds : 𝒞.Holds net) {m : Move L E I} (meets : 𝒞.Meets net m) :
    𝒞.Holds (net.move client service m) := by
  cases m with
  | step l =>
    obtain ⟨good, le⟩ := 𝒞.step_good holds.good meets
    exact ⟨good, fun seat mem => (holds.sits seat mem).later le⟩
  | input n i =>
    simp only [Net.move, Net.input]
    split
    · rename_i seat here
      exact holds.reseat n holds.good (𝒞.refl _)
        ((holds.sits seat (List.mem_of_getElem? here)).input holds.good i)
    · exact holds
  | deliver n j e => exact holds.deliver n j e
  | receive n j =>
    simp only [Net.move, Net.receive]
    split
    · rename_i seat here
      split
      · rename_i waits
        split
        · rename_i replies
          exact holds.reseat n holds.good (𝒞.refl _)
            ((holds.sits seat (List.mem_of_getElem? here)).receive holds.good waits replies)
        · exact holds
      · exact holds
    · exact holds

/-- The contract holds after every run. -/
theorem run_holds {ms : List (Move L E I)}
    (meets : Along (fun m net => net.move client service m) 𝒞.Meets ms net)
    (start : 𝒞.Holds net) : 𝒞.Holds (run (fun m net => net.move client service m) ms net) :=
  run_invariant 𝒞.Holds (fun _ _ meets holds => holds.move meets) meets start

end Contract

end Clients
