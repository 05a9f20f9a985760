import OneRoof.Sessions

/-!
# Accounts and the sessions that name them

The columns of `tblUSER` that tell one person from another, the two kinds of
rows `createUser` inserts, and what it means that a session user names a row.
Everything here is about requests whose fields are scalars.
-/

namespace OneRoof

open Sql

theorem cellJs_scalar (v : Value) : (cellJs v).isScalar = true := by
  cases v <;> rfl

/-- A row of somebody who signed up here. -/
structure LocalRow (r : Row UserCol) : Prop where
  email : r .email ≠ .null
  hash_pass : r .hash_pass ≠ .null
  facebook_id : r .facebook_id = .null
  facebook_email : r .facebook_email = .null
  facebook_name : r .facebook_name = .null
  facebook_token : r .facebook_token = .null

/-- A row of somebody who came through Facebook. -/
structure FacebookRow (r : Row UserCol) : Prop where
  facebook_id : r .facebook_id ≠ .null
  email : r .email = .null
  hash_pass : r .hash_pass = .null

/-- The columns that the profile pages change. -/
def UserCol.isProfile : UserCol → Bool
  | .displayName | .payment_method | .payment_username | .hash_pass | .phone_num
  | .user_pic => true
  | _ => false

/-- What identifies a row of `tblUSER`. -/
structure Account where
  user_id : Value
  email : Value
  facebook_id : Value

def account (r : Row UserCol) : Account := ⟨r .user_id, r .email, r .facebook_id⟩

def Tables.accounts (t : Tables) : List Account := t.user.map account

section Accounts

variable {collate : String → String}

theorem account_update {r : Row UserCol} {c : UserCol} (profile : c.isProfile = true)
    (v : Value) : account (Function.update r c v) = account r := by
  cases c <;> first | rfl | cases profile

/-- A profile column leaves the kind of a row, but for the password of a Facebook account. -/
theorem LocalRow.update {r : Row UserCol} (kind : LocalRow r) {c : UserCol}
    (profile : c.isProfile = true) {v : Value} (given : c = .hash_pass → v ≠ .null) :
    LocalRow (Function.update r c v) := by
  obtain ⟨e, h, a, b, d, f⟩ := kind
  by_cases hc : c = .hash_pass
  · subst hc
    exact ⟨e, given rfl, a, b, d, f⟩
  · cases c <;> first | exact absurd rfl hc | exact ⟨e, h, a, b, d, f⟩ | cases profile

theorem FacebookRow.update {r : Row UserCol} (kind : FacebookRow r) {c : UserCol}
    (profile : c.isProfile = true) {v : Value} (other : c ≠ .hash_pass) :
    FacebookRow (Function.update r c v) := by
  obtain ⟨a, e, h⟩ := kind
  cases c <;> first | exact absurd rfl other | exact ⟨a, e, h⟩ | cases profile

/-- One profile column of one row is set. -/
theorem accounts_update {q : Cond UserCol} {c : UserCol} (profile : c.isProfile = true) (l : Lit)
    (rows : List (Row UserCol)) :
    (update collate q [(c, .lit l)] rows).map account = rows.map account := by
  rw [update, List.map_map]
  refine List.map_congr_left fun r _ => ?_
  simp only [Function.comp_apply]
  split
  · exact account_update profile _
  · rfl

variable {email displayName hashPass paymentMethod paymentUsername mobile : JsVal} {n : Nat}
variable {row : Row UserCol}

/-- The row of a sign-up. -/
theorem insertUser_local (scalars : ∀ v ∈ [email, displayName, hashPass, paymentMethod,
      paymentUsername, mobile], v.isScalar = true)
    (filled : insertUser collate (.localUser email displayName hashPass paymentMethod
      paymentUsername mobile) n = some row) :
    account row = ⟨.int n, store UserCol.email email.lit.value, .null⟩ ∧
    (email.lit ≠ .null → hashPass.lit ≠ .null → LocalRow row) := by
  simp only [List.forall_mem_cons] at scalars
  rw [insertUser, newRow, valuesOf_scalars (by simp [scalars])] at filled
  rw [fill_eq_assign filled]
  refine ⟨rfl, fun mailed hashed => ⟨?_, ?_, rfl, rfl, rfl, rfl⟩⟩
  · obtain ⟨s, hs⟩ := store_text (c := UserCol.email) (m := 60) rfl (lit_value_ne_null mailed)
    intro h
    cases hs.symm.trans h
  · obtain ⟨s, hs⟩ := store_text (c := UserCol.hash_pass) (m := 64) rfl (lit_value_ne_null hashed)
    intro h
    cases hs.symm.trans h

/-- The row of a first login through Facebook. -/
theorem insertUser_facebook {facebook_email displayName facebook_token id : String}
    (fits : id.length ≤ 64)
    (filled : insertUser collate (.facebookUser (.str facebook_email) (.str displayName)
      (.str facebook_token) (.str id)) n = some row) :
    account row = ⟨.int n, .null, .text id⟩ ∧ FacebookRow row := by
  rw [insertUser, newRow] at filled
  obtain ⟨sets, hs, filled⟩ := Option.bind_eq_some_iff.mp filled
  cases hs
  rw [fill_eq_assign filled]
  refine ⟨?_, fun h => ?_, rfl, rfl⟩
  · exact congrArg (Account.mk _ _ ∘ Value.text) (cut_of_le fits)
  · cases h

end Accounts

section Lookup

variable {collate : String → String} {db db' : Database collate} {rows : List (Row UserCol)}

theorem selectUser_given {v : JsVal} (scalar : v.isScalar = true) (given : v.lit ≠ .null)
    (c : UserCol) (db : Database collate) : selectUser collate c v db =
      some (db.tables.user.filter (fun r => eqLit collate (r c) v.lit = some true), db) := by
  rcases JsVal.bare_scalar scalar with ⟨-, missing⟩ | ⟨bare, -⟩
  · exact absurd missing given
  · rw [selectUser, bare, Option.bind_eq_bind, Option.bind_some, JsVal.escape_scalar scalar]
    rfl

/-- A row is looked up by a column and a scalar; NULL finds nobody. -/
theorem selectUser_scalar {c : UserCol} {v : JsVal} (scalar : v.isScalar = true)
    (h : selectUser collate c v db = some (rows, db')) :
    v.lit ≠ .null ∧ db' = db ∧
      rows = db.tables.user.filter (fun r => eqLit collate (r c) v.lit = some true) := by
  refine ⟨?_, selectUser_same h, ?_⟩
  all_goals
    obtain ⟨w, hw, h⟩ := Option.bind_eq_some_iff.mp h
    rcases JsVal.bare_scalar scalar with ⟨missing, -⟩ | ⟨given, hl⟩
  · rw [missing] at hw
    cases hw
  · exact hl
  · rw [missing] at hw
    cases hw
  · rw [given] at hw
    cases hw
    rw [JsVal.escape_scalar scalar] at h
    cases h
    rfl

end Lookup

/-- The account that a look-up of an email comes to first. -/
def firstWith (collate : String → String) (accounts : List Account) (email : JsVal) :
    Option Account :=
  accounts.find? (fun a => eqLit collate a.email email.lit = some true)

theorem head_firstWith {collate : String → String} {t : Tables} {email : JsVal} {r : Row UserCol}
    (head : (t.user.filter fun r => eqLit collate (r .email) email.lit = some true).head? =
      some r) : firstWith collate t.accounts email = some (account r) := by
  rw [List.head?_filter] at head
  rw [firstWith, Tables.accounts, List.find?_map]
  exact congrArg (Option.map account) head

/-- A session user names an account: the first one with its email or, without an
email, one with its Facebook id. -/
structure Identified (collate : String → String) (accounts : List Account) (u : SessionUser) :
    Prop where
  scalar : u.email.isScalar = true
  named : ∃ n a, u.user_id = some n ∧ a.user_id = .int n ∧ a ∈ accounts ∧
    (firstWith collate accounts u.email = some a ∨ u.email.lit = .null ∧
      u.facebook_id.isScalar = true ∧ eqLit collate a.facebook_id u.facebook_id.lit = some true)

section Identified

variable {collate : String → String} {accounts accounts' : List Account} {u u' : SessionUser}

theorem Identified.later (h : Identified collate accounts u) (le : accounts <+: accounts') :
    Identified collate accounts' u := by
  obtain ⟨scalar, n, a, hn, ha, mem, kind⟩ := h
  refine ⟨scalar, n, a, hn, ha, le.subset mem, ?_⟩
  rcases kind with first | facebook
  · exact Or.inl (le.find?_eq_some first)
  · exact Or.inr facebook

theorem Identified.same (h : Identified collate accounts u) (same : u.Same u') :
    Identified collate accounts u' := by
  obtain ⟨scalar, named⟩ := h
  refine ⟨by rw [same.email]; exact scalar, ?_⟩
  rw [same.user_id, same.email, same.facebook_id]
  exact named

theorem firstWith_email {email : JsVal} {a : Account}
    (first : firstWith collate accounts email = some a) :
    a ∈ accounts ∧ eqLit collate a.email email.lit = some true :=
  ⟨List.mem_of_find?_eq_some first, by simpa using List.find?_some first⟩

end Identified

section Found

variable {collate : String → String} {db db' : Database collate} {rows : List (Row UserCol)}
variable {row : Row UserCol}

theorem eqLit_ne_null {v : Value} {l : Lit} (h : eqLit collate v l = some true) : v ≠ .null := by
  rintro rfl
  cases h

theorem lit_ne_null {v : Value} {l : Lit} (h : eqLit collate v l = some true) : l ≠ .null := by
  rintro rfl
  rw [eqLit_null] at h
  cases h

theorem cellInt_user_id (mem : row ∈ db.tables.user) :
    ∃ n, cellInt (row .user_id) = some n ∧ row .user_id = .int n := by
  obtain ⟨n, hn⟩ := int_cell (c := UserCol.user_id) rfl rfl db.sound.user_typed mem
  exact ⟨n, by rw [hn]; rfl, hn⟩

/-- The row a look-up by email comes to first. -/
theorem getUser_head {email : JsVal} (scalar : email.isScalar = true)
    (he : exec collate (.getUser email) db = some (rows, db')) (head : rows.head? = some row) :
    row ∈ db.tables.user ∧ email.lit ≠ .null ∧ eqLit collate (row .email) email.lit = some true ∧
      firstWith collate db.tables.accounts email = some (account row) := by
  obtain ⟨given, -, hrows⟩ := selectUser_scalar scalar he
  have mem := List.mem_of_mem_head? (Option.mem_def.mpr head)
  rw [hrows] at head mem
  exact ⟨(List.mem_filter.mp mem).1, given, by simpa using (List.mem_filter.mp mem).2,
    head_firstWith head⟩

/-- The email of a row finds what the email it was found by finds. -/
theorem firstWith_row {email : JsVal} (mem : row ∈ db.tables.user)
    (equal : eqLit collate (row .email) email.lit = some true) :
    firstWith collate db.tables.accounts (cellJs (row .email)) =
      firstWith collate db.tables.accounts email := by
  obtain ⟨s, hs, -⟩ := (varchar_cases (c := UserCol.email) (m := 60) rfl db.sound.user_typed
    mem).resolve_left fun h => eqLit_ne_null equal h.1
  rw [hs] at equal ⊢
  have cases_eq : ∀ r ∈ db.tables.user, eqLit collate (r .email) (JsVal.str s).lit =
      eqLit collate (r .email) email.lit := by
    intro r hr
    rcases varchar_cases (c := UserCol.email) (m := 60) rfl db.sound.user_typed hr with
      ⟨none, -⟩ | ⟨t, ht, -⟩
    · rw [none]
      rfl
    · rw [ht]
      cases hl : email.lit <;> simp_all [JsVal.lit, JsVal.quoted, eqLit]
  simp only [firstWith, Tables.accounts, List.find?_map]
  rw [← List.head?_filter, ← List.head?_filter]
  congr 2
  refine List.filter_congr fun r hr => decide_eq_decide.mpr ?_
  exact Eq.congr_left (cases_eq r hr)

theorem exec_createUser {user : NewUser} {r : Packet}
    (he : exec collate (.createUser user) db = some (r, db')) :
    ∃ row, insertUser collate user db.next.user = some row ∧
      db'.tables.user = db.tables.user ++ [row] ∧ r.insertId = db.next.user := by
  obtain ⟨row, filled, he⟩ := Option.bind_eq_some_iff.mp he
  obtain ⟨ht, -, hr⟩ := bind_commit he
  exact ⟨row, filled, by rw [ht], by rw [← hr]⟩

end Found

end OneRoof
