import Mathlib

/-! # Fences — a late request is recognised by its token

    A table shows, for each name, the item being dealt with and the token it is
    dealt with under; a ticket is a request under way, with the token it was
    issued with.  A ticket is honoured while its name still shows its token.  If
    every token is fresh when it is issued, an honoured ticket is about the item
    the table shows, and a ticket that has lapsed is never honoured again. -/

namespace Fence

/-- A request about `item`, made on behalf of `name`. -/
structure Ticket (N V T : Type) where
  name : N
  item : V
  token : T
deriving DecidableEq

/-- The same request under another kind of token. -/
def Ticket.mapToken {N V T T' : Type} (f : T → T') (ticket : Ticket N V T) : Ticket N V T' :=
  ⟨ticket.name, ticket.item, f ticket.token⟩

variable {N V T : Type} {table : N → Option (V × T)} {underway underway' : Set (Ticket N V T)}
variable {ticket : Ticket N V T} {name : N} {entry : Option (V × T)} {issued : List (Ticket N V T)}

/-- The table or a ticket still holds the token. -/
def Live (table : N → Option (V × T)) (underway : Set (Ticket N V T)) (token : T) : Prop :=
  (∃ name item, table name = some (item, token)) ∨ ∃ ticket ∈ underway, ticket.token = token

/-- Whoever shows the token of a ticket is the one the ticket was issued for,
    dealing with the item it is about. -/
def Bound (table : N → Option (V × T)) (underway : Set (Ticket N V T)) : Prop :=
  ∀ name item ticket, table name = some (item, ticket.token) → ticket ∈ underway →
    ticket.name = name ∧ ticket.item = item

/-- How one entry changes: it stays, it is cleared, or it takes a token that has
    just been issued to it. -/
inductive Renewal (name : N) (old : Option (V × T)) :
    List (Ticket N V T) → Option (V × T) → Prop where
  | kept : Renewal name old [] old
  | cleared : Renewal name old [] none
  | issued {item : V} {token : T} : Renewal name old [⟨name, item, token⟩] (some (item, token))

/-! ## Tickets that come and go -/

theorem Bound.empty : Bound (fun _ : N => none) underway := fun _ _ _ h => nomatch h

theorem Bound.mono (h : Bound table underway) (hsub : underway' ⊆ underway) :
    Bound table underway' :=
  fun name item ticket htable hmem => h name item ticket htable (hsub hmem)

/-- An honoured ticket is about the item its name shows. -/
theorem Bound.item_eq (h : Bound table underway) (hmem : ticket ∈ underway)
    {item : V} (htable : table ticket.name = some (item, ticket.token)) : ticket.item = item :=
  (h _ _ _ htable hmem).2

/-- Live tokens, from the lists of what is shown and what is under way. -/
theorem live_iff_mem {shown : List (V × T)} {tickets : List (Ticket N V T)}
    (hshown : ∀ pair, pair ∈ shown ↔ ∃ name, table name = some pair)
    (htickets : ∀ ticket, ticket ∈ tickets ↔ ticket ∈ underway) {token : T} :
    token ∈ shown.map Prod.snd ++ tickets.map Ticket.token ↔ Live table underway token := by
  rw [List.mem_append, List.mem_map, List.mem_map]
  refine or_congr ⟨?_, ?_⟩ ⟨?_, ?_⟩
  · rintro ⟨⟨item, _⟩, hmem, rfl⟩
    obtain ⟨name, hname⟩ := (hshown _).mp hmem
    exact ⟨name, item, hname⟩
  · rintro ⟨name, item, hname⟩
    exact ⟨_, (hshown _).mpr ⟨name, hname⟩, rfl⟩
  · rintro ⟨ticket, hmem, htoken⟩
    exact ⟨ticket, (htickets ticket).mp hmem, htoken⟩
  · rintro ⟨ticket, hmem, htoken⟩
    exact ⟨ticket, (htickets ticket).mpr hmem, htoken⟩

/-! ## Entries that change -/

/-- A renewal, seen through another kind of token. -/
theorem Renewal.mapToken {T' : Type} {old new : Option (V × T)} (f : T → T')
    (h : Renewal name old issued new) :
    Renewal name (old.map (Prod.map id f)) (issued.map (Ticket.mapToken f))
      (new.map (Prod.map id f)) := by
  cases h with
  | kept => exact .kept
  | cleared => exact .cleared
  | issued => exact .issued

/-- A ticket that a change issues is shown after it. -/
theorem Renewal.issued_shown {old : Option (V × T)} (h : Renewal name old issued entry)
    (hmem : ticket ∈ issued) : ticket.name = name ∧ entry = some (ticket.item, ticket.token) := by
  cases h with
  | kept | cleared => exact nomatch hmem
  | issued =>
      rw [List.mem_singleton.mp hmem]
      exact ⟨rfl, rfl⟩

section Renewal

variable [DecidableEq N]

/-- What a changed table shows was there before, or has just been issued. -/
theorem Renewal.shows (h : Renewal name (table name) issued entry) {other : N} {item : V}
    {token : T} (htable : Function.update table name entry other = some (item, token)) :
    table other = some (item, token) ∨ ⟨other, item, token⟩ ∈ issued := by
  by_cases hname : other = name
  · subst hname
    rw [Function.update_self] at htable
    cases h with
    | kept => exact Or.inl htable
    | cleared => exact nomatch htable
    | issued =>
        cases htable
        exact Or.inr List.mem_cons_self
  · rw [Function.update_of_ne hname] at htable
    exact Or.inl htable

/-- A token that is live after the change was live before, or is one of the new ones. -/
theorem Renewal.live (h : Renewal name (table name) issued entry)
    (hsub : ∀ ticket ∈ underway', ticket ∈ underway ∨ ticket ∈ issued) {token : T}
    (hlive : Live (Function.update table name entry) underway' token) :
    Live table underway token ∨ token ∈ issued.map Ticket.token := by
  rcases hlive with ⟨other, item, hshow⟩ | ⟨ticket, hmem, rfl⟩
  · rcases h.shows hshow with hold | hnew
    · exact Or.inl (Or.inl ⟨other, item, hold⟩)
    · exact Or.inr (List.mem_map.mpr ⟨_, hnew, rfl⟩)
  · rcases hsub ticket hmem with hold | hnew
    · exact Or.inl (Or.inr ⟨ticket, hold, rfl⟩)
    · exact Or.inr (List.mem_map_of_mem hnew)

/-- **Fresh tokens keep tickets bound.** -/
theorem Renewal.bound (h : Renewal name (table name) issued entry) (hb : Bound table underway)
    (hsub : ∀ ticket ∈ underway', ticket ∈ underway ∨ ticket ∈ issued)
    (hfresh : ∀ token ∈ issued.map Ticket.token, ¬ Live table underway token) :
    Bound (Function.update table name entry) underway' := by
  intro other item ticket hshow hmem
  have hnot : ∀ {ticket'}, ticket' ∈ issued → ticket'.token = ticket.token →
      ¬ Live table underway ticket.token := by
    intro ticket' hmem' htoken
    rw [← htoken]
    exact hfresh _ (List.mem_map_of_mem hmem')
  rcases h.shows hshow with hold | hnew <;> rcases hsub ticket hmem with hbefore | hafter
  · exact hb other item ticket hold hbefore
  · exact absurd (Or.inl ⟨other, item, hold⟩) (hnot hafter rfl)
  · exact absurd (Or.inr ⟨ticket, hbefore, rfl⟩) (hnot hnew rfl)
  · -- a change issues at most one ticket
    cases h with
    | kept | cleared => exact nomatch hnew
    | issued =>
        rw [List.mem_singleton.mp hafter] at hnew ⊢
        cases List.mem_singleton.mp hnew
        exact ⟨rfl, rfl⟩

end Renewal

end Fence
