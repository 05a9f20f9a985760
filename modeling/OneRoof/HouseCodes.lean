import OneRoof.Joining
import OneRoof.Safety
import OneRoof.Lib.Hex
import OneRoof.Lib.Joins

/-!
# Where a house code leads

`houseCode` prints two groups of sixteen random bits. The one that `s4` adds keeps the
leading zeros of a group, so that a code has eight digits and tells both groups. As long
as no two requests draw the same groups, no two houses have one code, and whoever joins
with a code that `createHouse` has answered is put into the house it was made for.
-/

namespace OneRoof

open Sql Async Async.Prog Prog

variable {P : Platform}

/-- Eight hexadecimal digits in lower case. -/
def IsCode (code : String) : Prop := code.length = 8 ∧ ∀ d ∈ code.toList, Hex.IsLower d

instance (code : String) : Decidable (IsCode code) := inferInstanceAs (Decidable (_ ∧ _))

section Encoding

/-- `s4` as it is written, for what `Math.random` returns. -/
def s4Of (random : ℚ) : String :=
  String.ofList ((Nat.toDigits 16 ⌊(1 + random) * 0x10000⌋.toNat).drop 1)

/-- The sixteen bits `s4` takes from it. -/
def drawOf (random : ℚ) : Fin 65536 := Fin.ofNat 65536 ⌊65536 * random⌋.toNat

theorem s4_toList (draw : Fin 65536) : (s4 draw).toList = Hex.padded 4 draw := by
  have digits := Hex.toDigits_eq (w := 4) draw.isLt
  rw [s4, String.toList_ofList, show 65536 + (draw : Nat) = 16 ^ 4 + draw from rfl, digits]
  rfl

theorem s4Of_eq {random : ℚ} (least : 0 ≤ random) (most : random < 1) :
    s4Of random = s4 (drawOf random) := by
  have low : 0 ≤ ⌊65536 * random⌋ := Int.floor_nonneg.mpr (by linarith)
  have high : ⌊65536 * random⌋ < 65536 := Int.floor_lt.mpr (by push_cast; linarith)
  have shifted : ⌊(1 + random) * 65536⌋ = 65536 + ⌊65536 * random⌋ := by
    rw [show (1 + random) * 65536 = ((65536 : Int) : ℚ) + 65536 * random by push_cast; ring,
      Int.floor_intCast_add]
  have drawn : ((drawOf random : Fin 65536) : Nat) = ⌊65536 * random⌋.toNat := by
    simp only [drawOf, Fin.val_ofNat]
    omega
  rw [s4Of, s4, shifted, drawn]
  congr 3
  omega

theorem houseCode_toList (draws : Nat → Fin 65536) :
    (houseCode draws).toList = Hex.padded 4 (draws 0) ++ Hex.padded 4 (draws 1) := by
  rw [houseCode, String.toList_append, s4_toList, s4_toList]

theorem houseCode_isCode (draws : Nat → Fin 65536) : IsCode (houseCode draws) := by
  constructor
  · rw [← String.length_toList, houseCode_toList, List.length_append, Hex.length_padded,
      Hex.length_padded]
  · rw [houseCode_toList]
    intro d hd
    rcases List.mem_append.mp hd with first | second
    · exact Hex.padded_lower _ _ d first
    · exact Hex.padded_lower _ _ d second

/-- A code tells both groups. -/
theorem houseCode_inj {draws draws' : Nat → Fin 65536} (same : houseCode draws = houseCode draws') :
    (draws 0, draws 1) = (draws' 0, draws' 1) := by
  have lists := congrArg String.toList same
  rw [houseCode_toList, houseCode_toList] at lists
  obtain ⟨first, second⟩ := List.append_inj lists (by simp)
  have groups : ∀ n m : Fin 65536, Hex.padded 4 n = Hex.padded 4 m → n = m := fun n m h =>
    Fin.ext (Hex.padded_inj (w := 4) n.isLt m.isLt h)
  rw [groups _ _ first, groups _ _ second]

end Encoding

/-- The groups that the `createHouse` requests of a run draw. -/
def drawnPairs : List (Label P) → List (Fin 65536 × Fin 65536)
  | [] => []
  | .arrive q :: ls =>
    if q.route matches .createHouse then (q.draws 0, q.draws 1) :: drawnPairs ls else drawnPairs ls
  | _ :: ls => drawnPairs ls

section Once

variable {code : String}

/-- The statement makes a house with the code. -/
def Stmt.builds (code : String) : Stmt → Bool
  | .createHouse _ _ houseCode => houseCode = code
  | _ => false

theorem Sends.builds {c : Ctx} {s : Stmt} (sends : Sends P c s) (marked : s.builds code = true) :
    c.req.route = .createHouse ∧ houseCode c.req.draws = code := by
  cases sends with
  | select reads => cases s <;> simp_all [Stmt.isSelect, Stmt.builds]
  | createHouse route => exact ⟨route, of_decide_eq_true marked⟩
  | _ => cases marked

theorem store_code {s : String} (isCode : IsCode s) :
    store HouseCol.house_code (.text s) = .text s :=
  store_fitting (by simp [fits, Columns.type, isCode.1])

/-- The row a house is stored as. -/
theorem createHouse_row {collate : String → String} {db db' : Database collate} {name : JsVal}
    {rent : Int} {r : Packet} (isCode : IsCode code)
    (he : exec collate (.createHouse name rent code) db = some (r, db')) :
    ∃ row, db'.tables.house = db.tables.house ++ [row] ∧ row .house_id = .int r.insertId ∧
      row .house_code = .text code := by
  obtain ⟨row, filled, he⟩ := Option.bind_eq_some_iff.mp he
  obtain ⟨ht, -, rfl⟩ := bind_commit he
  refine ⟨row, by rw [ht], newRow_key filled (by simp), ?_⟩
  rw [← store_code isCode]
  exact newRow_cell filled (c := .house_code) (v := .str code) (by simp) (by simp) rfl

/-- Every statement but `createHouse` leaves the houses. -/
theorem exec_house_cases {collate : String → String} {db db' : Database collate} {s : Stmt}
    {r : s.Reply} (he : exec collate s db = some (r, db')) :
    db'.tables.house = db.tables.house ∨ ∃ name rent code, s = .createHouse name rent code := by
  have effect := exec_effect he
  generalize db'.tables = t at effect ⊢
  generalize db'.next = n at effect
  cases effect with
  | createHouse row => exact Or.inr ⟨_, _, _, rfl⟩
  | _ => exact Or.inl rfl

/-- The houses with a code. -/
def coded (code : String) (t : Tables) : Nat := t.house.countP fun r => r .house_code = .text code

/-- The houses with a code, and the statements that may make one. -/
def Building (code : String) (σ : Config P) : Prop :=
  Quota (fun (_ : Ctx) s => Stmt.builds code s) (fun _ (_ : Act) => false)
    (fun w : World P => coded code w.db.tables) σ

theorem building_metered (code : String) :
    Metered (fun (_ : Ctx) s => Stmt.builds code s) (fun _ (_ : Act) => false) (server P)
      (Sends P) (fun w => coded code w.db.tables) where
  exec := by
    intro c s w r w' sends he
    obtain ⟨⟨r', db⟩, hx, hw⟩ := Option.map_eq_some_iff.mp he
    cases hw
    rcases exec_house_cases hx with same | ⟨name, rent, code', rfl⟩
    · simp only [coded, same]
      exact Nat.le_add_right _ _
    · have drawn := (sends.builds (decide_eq_true rfl)).2
      obtain ⟨row, houses, -, named⟩ := createHouse_row (drawn ▸ houseCode_isCode _) hx
      simp only [coded, houses, List.countP_append, List.countP_singleton, named, Stmt.builds,
        Value.text.injEq]
      by_cases same : code' = code <;> simp [same]
  refuse _ _ _ := Nat.le_refl _
  perform c a w := by simp [perform_db c a w]
  first h := nomatch h

/-- A `createHouse` makes one house at most. -/
theorem createHouse_builds_once {c : Ctx} (route : c.req.route = .createHouse) :
    (handler P c).Costs (fun _ s => Stmt.builds code s) (fun _ _ => false) c 0 1 := by
  have sends : ∀ answer user, (Prog.send answer user).Costs (fun (_ : Ctx) s => Stmt.builds code s)
      (fun _ (_ : Act) => false) c 0 0 := fun answer user =>
    costs_zero (send_issues _ _) (acts_of_forall (fun _ => rfl) _)
  rw [handler, OneRoof.route, route]
  refine ⟨0, 0, by simpa using Bool.toNat_le _, fun r => ?_, trivial⟩
  cases r with
  | none => exact sends _ _
  | some packet =>
    refine Costs.recover (t := 0) ?_ (sends _ _)
    cases c.user with
    | none => exact Nat.le_refl 0
    | some u => exact ⟨0, 0, by simp [Stmt.builds], fun _ => trivial, sends _ _⟩

/-- Nothing in flight has drawn the code, and no house has it. -/
def Undrawn (code : String) (σ : Config P) : Prop :=
  coded code σ.world.db.tables = 0 ∧ ∀ p ∈ σ.pending, p.ctx.req.route = .createHouse →
    houseCode p.ctx.req.draws ≠ code

theorem Sends.unbuilt {c : Ctx} {s : Stmt} (sends : Sends P c s)
    (other : ¬ (c.req.route = .createHouse ∧ houseCode c.req.draws = code)) :
    s.builds code = false := by
  by_contra marked
  exact other (sends.builds (by simpa using marked))

theorem Undrawn.owes {σ : Config P} (sent : Sent (fun _ => True) σ) (undrawn : Undrawn code σ) :
    Weighed (Owes (fun (_ : Ctx) s => Stmt.builds code s) fun _ (_ : Act) => false) σ.pending
      0 := by
  refine weighed_zero fun p hp => ?_
  have other : ¬ (p.ctx.req.route = .createHouse ∧ houseCode p.ctx.req.draws = code) := fun h =>
    undrawn.2 p hp h.1 h.2
  obtain ⟨first, later⟩ := sent p hp
  exact owes_nothing first later (fun s h => h.2.unbuilt other) fun _ => rfl

/-- A request arrives that draws the code. -/
def Draws (code : String) (l : Label P) : Prop :=
  ∃ q, l = .arrive q ∧ q.route = .createHouse ∧ houseCode q.draws = code

theorem mem_drawnPairs {ls : List (Label P)} {q : Request} (mem : .arrive q ∈ ls)
    (route : q.route = .createHouse) : (q.draws 0, q.draws 1) ∈ drawnPairs ls := by
  induction ls with
  | nil => cases mem
  | cons l ls ih =>
    rcases List.mem_cons.mp mem with rfl | later
    · simp [drawnPairs, route]
    · cases l with
      | arrive q' =>
        simp only [drawnPairs]
        split
        · exact List.mem_cons_of_mem _ (ih later)
        · exact ih later
      | settle i lost => exact ih later
      | disturb db => exact ih later

theorem building_step {l : Label P} (own : Label.own P l) (other : ¬ Draws code l) {σ : Config P}
    (sent : Sent (fun _ => True) σ) (building : Building code σ) :
    Building code (step (server P) l σ) := by
  cases l with
  | arrive q =>
    obtain ⟨n, weighed, total⟩ := building
    rw [arrive_eq]
    exact enter_quota (building_metered code) (handler P _) ⟨σ.world.next, σ.pending⟩
      (costs_zero ((handler_issues P _).mono fun s sends =>
        sends.unbuilt fun h => other ⟨q, rfl, h⟩) (acts_of_forall (fun _ => rfl) _)) weighed total
  | settle i lost =>
    exact settle_quota (building_metered code) i lost σ (fun p hp => (sent p hp).1.2) building
  | disturb db => exact absurd own id

theorem undrawn_arrive {l : Label P} (draws : Draws code l) {σ : Config P}
    (sent : Sent (fun _ => True) σ) (undrawn : Undrawn code σ) :
    Building code (step (server P) l σ) := by
  obtain ⟨q, rfl, route, -⟩ := draws
  rw [arrive_eq]
  refine enter_quota (building_metered code) (handler P _) ⟨σ.world.next, σ.pending⟩
    (createHouse_builds_once (c := σ.world.context q) route) (undrawn.owes sent) ?_
  change coded code σ.world.db.tables + 1 + 0 ≤ 1
  rw [undrawn.1]

theorem undrawn_step {l : Label P} (own : Label.own P l) (other : ¬ Draws code l) {σ : Config P}
    (sent : Sent (fun _ => True) σ) (undrawn : Undrawn code σ) :
    Undrawn code (step (server P) l σ) := by
  constructor
  · rcases step_db_cases l own σ with same | ⟨i, p, r, -, hp, he⟩
    · rw [same]
      exact undrawn.1
    · have counted := (building_metered code).exec (c := p.ctx) (w := σ.world)
        (sent p (List.mem_of_getElem? hp)).1.2 (Option.map_eq_some_iff.mpr ⟨_, he, rfl⟩)
      have unbuilt : p.stmt.builds code = false :=
        (sent p (List.mem_of_getElem? hp)).1.2.unbuilt fun h =>
          undrawn.2 p (List.mem_of_getElem? hp) h.1 h.2
      simp only [unbuilt, undrawn.1, Bool.toNat_false] at counted
      exact Nat.le_zero.mp counted
  · intro p hp route
    cases l with
    | arrive q =>
      rcases mem_enter hp with old | ⟨ctx, -⟩
      · exact undrawn.2 p old route
      · rw [ctx] at route ⊢
        exact fun drawn => other ⟨q, rfl, route, drawn⟩
    | settle i lost =>
      obtain ⟨p', old, ctx⟩ := mem_settle hp
      rw [← ctx] at route ⊢
      exact undrawn.2 p' old route
    | disturb db => exact absurd own id

/-- When no two requests draw the same groups, no code is given to two houses. -/
theorem coded_once {ls : List (Label P)} (own : ∀ l ∈ ls, Label.own P l)
    (apart : (drawnPairs ls).Nodup) {σ : Config P} (sent : Sent (fun _ => True) σ)
    (start : Undrawn code σ ∨ Building code σ ∧ ∀ l ∈ ls, ¬ Draws code l) :
    coded code (run (server P) ls σ).world.db.tables ≤ 1 := by
  induction ls generalizing σ with
  | nil =>
    rcases start with undrawn | ⟨⟨n, -, total⟩, -⟩
    · exact undrawn.1 ▸ Nat.zero_le 1
    · exact Nat.le_trans (Nat.le_add_right _ n) total
  | cons l ls ih =>
    have ownHere := own l List.mem_cons_self
    have later : (drawnPairs ls).Nodup := by
      cases l with
      | arrive q =>
        simp only [drawnPairs] at apart
        split at apart
        · exact (List.nodup_cons.mp apart).2
        · exact apart
      | settle i lost => exact apart
      | disturb db => exact apart
    refine ih (fun l' hl => own l' (List.mem_cons_of_mem l hl)) later
      (step_sent l (fun _ _ => trivial) σ sent) ?_
    rcases start with undrawn | ⟨building, nobody⟩
    · by_cases draws : Draws code l
      · refine Or.inr ⟨undrawn_arrive draws sent undrawn, ?_⟩
        obtain ⟨q, rfl, route, drawn⟩ := draws
        rintro l' hl ⟨q', rfl, route', drawn'⟩
        have twice := mem_drawnPairs hl route'
        rw [houseCode_inj (drawn'.trans drawn.symm)] at twice
        simp only [drawnPairs, route, if_true] at apart
        exact (List.nodup_cons.mp apart).1 twice
      · exact Or.inl (undrawn_step ownHere draws sent undrawn)
    · exact Or.inr ⟨building_step ownHere (nobody l List.mem_cons_self) sent building,
        fun l' hl => nobody l' (List.mem_cons_of_mem l hl)⟩

end Once

section Answers

/-- The request has made a house, and the house is there with its code. -/
def Built (w : World P) (c : Ctx) : Prop :=
  ∃ name, ∃ packet : Packet,
    .completed c (.createHouse name 100 (houseCode c.req.draws)) packet ∈ w.log ∧
      ∃ row ∈ w.db.tables.house, row .house_id = .int packet.insertId ∧
        row .house_code = .text (houseCode c.req.draws)

/-- A code is answered only for a house that has it. -/
structure Coding (w : World P) : Prop where
  houses : ∀ r ∈ w.db.tables.house, ∃ draws, r .house_code = .text (houseCode draws)
  members : ∀ r ∈ w.db.tables.houseUser,
    ∃ k < w.db.next.houseUser, r .house_user_id = .int (k : Nat)
  answers : ∀ c v user, .answered c (.json v) user ∈ w.log → c.req.route = .createHouse →
    v = .str (houseCode c.req.draws) ∧ Built w c

def Act.Codes (c : Ctx) (w : World P) : Act → Prop
  | .send (.json v) _ => c.req.route = .createHouse → v = .str (houseCode c.req.draws) ∧ Built w c
  | .sendGathered _ => c.req.route ≠ .createHouse
  | _ => True

variable {c : Ctx} {w w' : World P}

theorem Built.later (built : Built w c) (grows : w.log <+: w'.log)
    (houses : w.db.tables.house ⊆ w'.db.tables.house) : Built w' c := by
  obtain ⟨name, packet, made, row, hr, same⟩ := built
  exact ⟨name, packet, grows.subset made, row, houses hr, same⟩

/-- Rows of `tblHOUSE_USER` are numbered below the counter. -/
theorem members_counted {db db' : Database P.collate} {s : Stmt} {r : s.Reply}
    (he : exec P.collate s db = some (r, db'))
    (counted : ∀ r ∈ db.tables.houseUser,
      ∃ k < db.next.houseUser, r .house_user_id = .int (k : Nat)) :
    ∀ r ∈ db'.tables.houseUser, ∃ k < db'.next.houseUser, r .house_user_id = .int (k : Nat) := by
  have effect := exec_effect he
  generalize db'.tables = t at effect ⊢
  generalize db'.next = n at effect ⊢
  cases effect with
  | addUserToHouse filled =>
    intro row hr
    rcases List.mem_append.mp hr with old | new
    · obtain ⟨k, below, key⟩ := counted row old
      exact ⟨k, Nat.lt_succ_of_lt below, key⟩
    · rw [List.mem_singleton.mp new]
      exact ⟨_, Nat.lt_succ_self _, newRow_key filled (by simp)⟩
  | removeUserHouse stays => exact fun row hr => counted row (List.mem_filter.mp hr).1
  | _ => exact counted

theorem houses_coded {db db' : Database P.collate} {s : Stmt} {r : s.Reply}
    (sends : Sends P c s) (he : exec P.collate s db = some (r, db'))
    (coded : ∀ r ∈ db.tables.house, ∃ draws, r .house_code = .text (houseCode draws)) :
    ∀ r ∈ db'.tables.house, ∃ draws, r .house_code = .text (houseCode draws) := by
  rcases exec_house_cases he with same | ⟨name, rent, code, rfl⟩
  · rw [same]
    exact coded
  · have drawn := (sends.builds (decide_eq_true rfl)).2
    obtain ⟨row, houses, -, named⟩ := createHouse_row (drawn ▸ houseCode_isCode _) he
    rw [houses]
    intro row' hr
    rcases List.mem_append.mp hr with old | new
    · exact coded row' old
    · rw [List.mem_singleton.mp new, named, ← drawn]
      exact ⟨_, rfl⟩

theorem Coding.perform (coding : Coding w) {a : Act} (codes : a.Codes c w) :
    Coding (World.perform c a w).2 := by
  have db : (World.perform c a w).2.db = w.db := perform_db c a w
  refine ⟨db ▸ coding.houses, db ▸ coding.members, fun c' v user answered route => ?_⟩
  have grows : w.log <+: (World.perform c a w).2.log := by
    rcases perform_log c a w with same | ⟨e, -, -, more⟩
    · exact same ▸ List.prefix_rfl
    · exact more ▸ List.prefix_append _ _
  have kept : v = .str (houseCode c'.req.draws) ∧ Built w c' →
      v = .str (houseCode c'.req.draws) ∧ Built (World.perform c a w).2 c' := fun h =>
    ⟨h.1, h.2.later grows (db ▸ List.Subset.refl _)⟩
  refine kept ?_
  have answers : ∀ answer saved, .answered c' (.json v) user ∈ (w.answer c answer saved).2.log →
      .answered c' (.json v) user ∈ w.log ∨ c' = c ∧ answer = .json v := by
    intro answer saved mem
    unfold World.answer at mem
    split at mem
    · exact Or.inl mem
    · rcases List.mem_append.mp mem with old | new
      · exact Or.inl old
      · cases List.mem_singleton.mp new
        exact Or.inr ⟨rfl, rfl⟩
  cases a with
  | send answer saved =>
    rcases answers answer saved answered with old | ⟨rfl, rfl⟩
    · exact coding.answers c' v user old route
    · exact codes route
  | sendGathered saved =>
    rcases answers _ saved answered with old | ⟨rfl, -⟩
    · exact coding.answers c' v user old route
    · exact absurd route codes
  | compareSync hash =>
    rcases List.mem_append.mp answered with old | new
    · exact coding.answers c' v user old route
    · cases List.mem_singleton.mp new
  | push entry total => exact coding.answers c' v user answered route

/-- Houses keep their codes, and codes are answered for houses. -/
def coding (P : Platform) : Discipline (server P) where
  Good := Coding
  Le w w' := w.log <+: w'.log ∧ w.db.tables.house ⊆ w'.db.tables.house
  Allowed c s _ := Sends P c s
  Permit c a w := a.Codes c w
  refl _ := ⟨List.prefix_rfl, List.Subset.refl _⟩
  trans h h' := ⟨h.1.trans h'.1, List.Subset.trans h.2 h'.2⟩
  mono _ sends := sends
  exec_good := by
    intro c s w r w' good sends he
    obtain ⟨⟨r', db⟩, hx, hw⟩ := Option.map_eq_some_iff.mp he
    cases hw
    have le : w.log <+: w.log ++ [.completed c s r] ∧
      w.db.tables.house ⊆ db.tables.house := ⟨List.prefix_append _ _, exec_houses hx⟩
    refine ⟨⟨houses_coded sends hx good.houses, members_counted hx good.members,
      fun c' v user answered route => ?_⟩, le⟩
    rcases List.mem_append.mp answered with old | new
    · obtain ⟨code, built⟩ := good.answers c' v user old route
      exact ⟨code, built.later le.1 le.2⟩
    · cases List.mem_singleton.mp new
  refuse_good := by
    intro c s w good
    have le : w.log <+: (w.fail c s).log := List.prefix_append _ _
    refine ⟨⟨good.houses, good.members, fun c' v user answered route => ?_⟩, le,
      List.Subset.refl _⟩
    rcases List.mem_append.mp answered with old | new
    · obtain ⟨code, built⟩ := good.answers c' v user old route
      exact ⟨code, built.later le (List.Subset.refl _)⟩
    · cases List.mem_singleton.mp new
  perform_good := by
    intro c a w good codes
    refine ⟨good.perform codes, ?_, ?_⟩
    · rcases perform_log c a w with same | ⟨e, -, -, more⟩
      · exact same ▸ List.prefix_rfl
      · exact more ▸ List.prefix_append _ _
    · rw [perform_db]
      exact List.Subset.refl _

theorem Act.codes_other (other : c.req.route ≠ .createHouse) (a : Act) (w : World P) :
    a.Codes c w := by
  cases a with
  | send answer user =>
    cases answer with
    | json v => exact fun route => absurd route other
    | _ => trivial
  | sendGathered user => exact other
  | _ => trivial

theorem createHouse_coding (route : c.req.route = .createHouse) (good : Coding w) :
    (coding P).Safe c (handler P c) w := by
  simp only [handler, OneRoof.route, route, createHouse]
  refine Discipline.Safe.recover good (safe_thenCatch (.createHouse route) (fun _ _ _ =>
    safe_send trivial) fun w' packet db later good he _ _ => ?_) fun _ _ _ => safe_send trivial
  refine safe_withUser fun u user => safe_start (.addUserToHouse user (Or.inl route))
    (safe_send fun _ => ⟨rfl, ?_⟩)
  obtain ⟨row, houses, key, named⟩ := createHouse_row (houseCode_isCode _) he
  refine ⟨_, packet, List.mem_append_right _ (List.mem_singleton_self _), row, ?_, key, named⟩
  change row ∈ db.tables.house
  rw [houses]
  exact List.mem_append_right _ (List.mem_singleton_self row)

theorem handler_coding (good : Coding w) : (coding P).Safe c (handler P c) w := by
  by_cases route : c.req.route = .createHouse
  · exact createHouse_coding route good
  · exact issues_safe (handler_issues P c) (fun s w sends => sends) (Act.codes_other route) w

theorem run_coding {ls : List (Label P)} (own : ∀ l ∈ ls, Label.own P l) :
    Coding (run (server P) ls (startUp P)).world := by
  have start : Coding (startUp P).world :=
    ⟨fun _ h => absurd h List.not_mem_nil, fun _ h => absurd h List.not_mem_nil,
      fun _ _ _ h => absurd h List.not_mem_nil⟩
  refine (Discipline.run_holds (𝒟 := coding P) ls (fun l hl => ?_) _
    (Discipline.idle_holds start)).1.1
  cases l with
  | settle i lost => trivial
  | disturb db => exact absurd (own _ hl) id
  | arrive q =>
    intro w good
    have next : Coding w.next := ⟨good.houses, good.members, good.answers⟩
    exact ⟨next, ⟨List.prefix_rfl, List.Subset.refl _⟩, handler_coding next⟩

end Answers

section Leads

/-- Whoever asks to join with the code is put into the house, whatever happens between
the steps of the request. -/
structure LetsIn (σ : Config P) (code : String) (h : Int) : Prop where
  looks : ∀ q, q.route = .joinHouse → (step (server P) (.arrive q) σ).pending =
    σ.pending ++ [lookingUp (σ.world.context q)]
  finds : ∀ i c u n, σ.pending[i]? = some (lookingUp c) →
    c.req.body.get "enterHouseCode" = .str code → c.user = some u → u.user_id = some n →
    (settle (server P) i false σ).world.db = σ.world.db ∧
      (settle (server P) i false σ).pending = σ.pending.eraseIdx i ++ [adding c h n]
  inserts : ∀ i c n, σ.pending[i]? = some (adding c h n) →
    (∃ row ∈ σ.world.db.tables.user, row .user_id = .int n) →
    σ.world.db.next.houseUser ≤ 2147483647 → ∃ row : Row HouseUserCol,
      row .house_id = .int h ∧ row .user_id = .int n ∧
        (settle (server P) i false σ).world.db.tables =
          { σ.world.db.tables with houseUser := σ.world.db.tables.houseUser ++ [row] }

/-- The row that puts a user who is known into a house that is known. -/
theorem exec_adds {db : Database P.collate} {h n : Int} {house : Row HouseCol} {user : Row UserCol}
    (hh : house ∈ db.tables.house) (houseId : house .house_id = .int h)
    (hu : user ∈ db.tables.user) (userId : user .user_id = .int n)
    (counted : ∀ r ∈ db.tables.houseUser,
      ∃ k < db.next.houseUser, r .house_user_id = .int (k : Nat))
    (range : db.next.houseUser ≤ 2147483647) :
    ∃ packet db', exec P.collate (.addUserToHouse (some h) (some n)) db = some (packet, db') ∧
      ∃ row : Row HouseUserCol, row .house_id = .int h ∧ row .user_id = .int n ∧
        db'.tables = { db.tables with houseUser := db.tables.houseUser ++ [row] } := by
  obtain ⟨row, filled⟩ :
      ∃ row, houseUserRow P.collate db.next.houseUser (some h) (some n) = some row := ⟨_, rfl⟩
  have key : row .house_user_id = .int db.next.houseUser := newRow_key filled (by simp)
  have home : row .house_id = .int h := by
    rw [houseUserRow_house filled, clip_cell rfl db.sound.house_typed hh houseId]
  have own : row .user_id = .int n := by
    obtain ⟨k, hk, own⟩ := houseUserRow_user filled
    cases hk
    rw [own, clip_cell rfl db.sound.user_typed hu userId]
  have typed : ∀ c, fits c (row c) = true := by
    have houseFits := db.sound.house_typed house hh .house_id (Columns.mem_all _)
    have userFits := db.sound.user_typed user hu .user_id (Columns.mem_all _)
    rw [houseId] at houseFits
    rw [userId] at userFits
    intro c
    cases c with
    | house_user_id =>
      rw [key]
      simp only [fits, Columns.type, decide_eq_true_eq]
      omega
    | house_id => exact home ▸ houseFits
    | user_id => exact own ▸ userFits
  have sound : Integrity P.collate
      { db.tables with houseUser := db.tables.houseUser ++ [row] } :=
    { db.sound with
      houseUser_typed := by
        intro r hr
        rcases List.mem_append.mp hr with old | new
        · exact db.sound.houseUser_typed r old
        · rw [List.mem_singleton.mp new]
          exact fun c _ => typed c
      houseUser_key := by
        refine List.pairwise_append.mpr ⟨db.sound.houseUser_key, List.pairwise_singleton _ _, ?_⟩
        intro r hr r' hr' same
        obtain ⟨k, below, number⟩ := counted r hr
        rw [List.mem_singleton.mp hr', key, number, eqValue_int] at same
        omega
      houseUser_house := by
        intro r hr
        rcases List.mem_append.mp hr with old | new
        · exact db.sound.houseUser_house r old
        · rw [List.mem_singleton.mp new]
          exact Or.inr ⟨house, hh, by rw [home, houseId, eqValue_int]⟩
      houseUser_user := by
        intro r hr
        rcases List.mem_append.mp hr with old | new
        · exact db.sound.houseUser_user r old
        · rw [List.mem_singleton.mp new]
          exact Or.inr ⟨user, hu, by rw [own, userId, eqValue_int]⟩ }
  obtain ⟨packet, he⟩ := exec_addUserToHouse filled db rfl
    (commit_of_sound { db.next with houseUser := db.next.houseUser + 1 } sound)
  exact ⟨packet, _, he, row, home, own, rfl⟩

/-- A code that one house has leads there. -/
theorem letsIn_of_coded {σ : Config P} (coding : Coding σ.world) {code : String} {h : Int}
    {house : Row HouseCol} (hh : house ∈ σ.world.db.tables.house)
    (houseId : house .house_id = .int h) (named : house .house_code = .text code)
    (only : ∀ r ∈ σ.world.db.tables.house, HasCode P.collate code r → r = house) :
    LetsIn σ code h where
  looks q route := by
    rw [arrive_eq, handler_joinHouse (c := σ.world.context q) route]
    rfl
  finds := by
    intro i c u n waits text user id
    have completes := exec_getHouseWithCode text σ.world.db
    generalize hr : select P.collate (.eq .house_code (.str code)) σ.world.db.tables.house = rows
      at completes
    have found : ∀ r ∈ rows, r = house := by
      intro r hr'
      obtain ⟨known, hit⟩ := List.mem_filter.mp (hr ▸ hr')
      exact only r known ((Cond.hits_iff P.collate).mp hit)
    have head : rows.head? = some house := by
      have has : HasCode P.collate code house := by
        rw [HasCode, named]
        exact eqLit_text code
      have own : house ∈ rows :=
        hr ▸ List.mem_filter.mpr ⟨hh, (Cond.hits_iff P.collate).mpr has⟩
      obtain ⟨row, head⟩ := Option.ne_none_iff_exists'.mp
        (mt List.head?_eq_none_iff.mp (List.ne_nil_of_mem own))
      rw [head, found row (List.mem_of_mem_head? (Option.mem_def.mpr head))]
    have inserts : letIn c.user (some rows) = _ := user ▸ letIn_found head houseId id
    have settled := (settle_at waits completes).trans
      (congrArg (fun prog => enter (server P) c prog _) inserts)
    exact ⟨by rw [settled]; rfl, by rw [settled]; rfl⟩
  inserts := by
    rintro i c n waits ⟨user, hu, userId⟩ range
    obtain ⟨packet, db', he, row, home, own, ht⟩ :=
      exec_adds hh houseId hu userId coding.members range
    refine ⟨row, home, own, ?_⟩
    rw [settle_at waits he]
    exact ht

/-- What holds of the codes that have been given out. -/
structure CodesLead (σ : Config P) : Prop where
  digits : ∀ c v user, .answered c (.json v) user ∈ σ.world.log → c.req.route = .createHouse →
    ∃ code, v = .str code ∧ IsCode code
  apart : ∀ r ∈ σ.world.db.tables.house, ∀ r' ∈ σ.world.db.tables.house,
    r .house_code = r' .house_code → r = r'
  leads : ∀ c code user, .answered c (.json (.str code)) user ∈ σ.world.log →
    c.req.route = .createHouse → ∃ name, ∃ packet : Packet,
      .completed c (.createHouse name 100 code) packet ∈ σ.world.log ∧
        LetsIn σ code packet.insertId

/-- Codes are compared by the database as they are printed. -/
def Distinguishes (P : Platform) : Prop :=
  ∀ s t, IsCode s → IsCode t → P.collate s = P.collate t → s = t

/-- When the requests that make houses draw different groups, codes lead to their houses. -/
theorem house_codes_lead (distinguishes : Distinguishes P) {ls : List (Label P)}
    (own : ∀ l ∈ ls, Label.own P l) (apart : (drawnPairs ls).Nodup) :
    (∀ random : ℚ, 0 ≤ random → random < 1 → s4Of random = s4 (drawOf random)) ∧
      CodesLead (run (server P) ls (startUp P)) := by
  have coding := run_coding own
  generalize hσ : run (server P) ls (startUp P) = σ at coding ⊢
  have once : ∀ code, coded code σ.world.db.tables ≤ 1 := by
    intro code
    rw [← hσ]
    exact coded_once own apart (startUp_sent _)
      (Or.inl ⟨rfl, fun p hp => absurd hp List.not_mem_nil⟩)
  have single : ∀ code, ∀ r ∈ σ.world.db.tables.house, ∀ r' ∈ σ.world.db.tables.house,
      r .house_code = .text code → r' .house_code = .text code → r = r' := by
    intro code r hr r' hr' named named'
    exact eq_of_countP_le_one (once code) hr hr' (by simpa using named) (by simpa using named')
  refine ⟨fun random => s4Of_eq, ?_, ?_, ?_⟩
  · intro c v user answered route
    exact ⟨_, (coding.answers c v user answered route).1, houseCode_isCode _⟩
  · intro r hr r' hr' same
    obtain ⟨draws, named⟩ := coding.houses r hr
    exact single _ r hr r' hr' named (same ▸ named)
  · intro c code user answered route
    obtain ⟨equal, name, packet, made, house, hh, houseId, named⟩ :=
      coding.answers c _ user answered route
    obtain rfl : code = houseCode c.req.draws := by simpa using equal
    refine ⟨name, packet, made, letsIn_of_coded coding hh houseId named fun r hr has => ?_⟩
    obtain ⟨draws, other⟩ := coding.houses r hr
    refine single _ r hr house hh ?_ named
    rw [HasCode, other, eqLit, Option.some.injEq, decide_eq_true_eq] at has
    rw [other, distinguishes _ _ (houseCode_isCode _) (houseCode_isCode _) has]

theorem sample_distinguishes : Distinguishes samplePlatform := by
  have lower : ∀ s, IsCode s → samplePlatform.collate s = s := by
    intro s isCode
    have same : s.toList.map Char.toLower = s.toList :=
      map_eq_self_iff.mpr fun d hd => Hex.toLower_eq (isCode.2 d hd)
    change String.ofList (s.toList.map Char.toLower) = s
    rw [same, String.ofList_toList]
  intro s t hs ht same
  rwa [lower s hs, lower t ht] at same

/-- A code is answered to a `createHouse`. -/
def Event.givesCode (code : String) : Event → Bool
  | .answered c (.json (.str s)) _ => (c.req.route matches .createHouse) && s = code
  | _ => false

theorem house_codes_sample :
    (run (server samplePlatform) annMoves (startUp samplePlatform)).world.log.any
      (Event.givesCode "00000000") = true ∧
    CodesLead (run (server samplePlatform) annMoves (startUp samplePlatform)) :=
  ⟨by decide +kernel, (house_codes_lead sample_distinguishes (by decide) (by decide)).2⟩

end Leads

end OneRoof
