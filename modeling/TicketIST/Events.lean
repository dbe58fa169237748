import TicketIST.Lib.Strings
import TicketIST.Lib.Table

/-!
# Events

The table of events, and `EventService` with the cache it keeps in front of it: a `std::map` from the
name an event was asked for to the event, in the order of the names.  As for accounts, MySQL compares
names by the key `coll` of their collation.
-/

namespace TicketIST

open TicketIST.Lib

structure Event where
  id : ℤ
  name : Text
  deriving DecidableEq

variable {coll : Text → Text}

/-- The table `events`, its names unique under the collation. -/
abbrev EventDB (coll : Text → Text) := Table Event Text fun e => coll e.name

namespace EventRepository

/-- `SELECT * FROM events` -/
def getAllEvents (db : EventDB coll) : List Event := db.rows

/-- `SELECT * FROM events WHERE name = ?` -/
def getEventByName (eventName : Text) (db : EventDB coll) : Option Event :=
  db.find? (coll eventName)

end EventRepository

/-- `std::map::emplace` on the entries in the order of their keys: a key that is there keeps its
value. -/
def emplace {α : Type} (k : Text) (v : α) : List (Text × α) → List (Text × α)
  | [] => [(k, v)]
  | (k', v') :: m =>
    if k = k' then (k', v') :: m
    else if k < k' then (k, v) :: (k', v') :: m
    else (k', v') :: emplace k v m

structure EventState (coll : Text → Text) where
  events : EventDB coll
  eventCache : List (Text × Event)

namespace EventService

/-- The constructor: `getAllEvents` puts every event into the cache under its name. -/
def init (events : EventDB coll) : EventState coll :=
  { events
    eventCache := (EventRepository.getAllEvents events).foldl (fun m e => emplace e.name e m) [] }

/-- `EventService::getEventByName`.  A statement that fails finds no event. -/
def getEventByName (fails : Bool) (eventName : Text) (s : EventState coll) :
    Except Exn Event × EventState coll :=
  match s.eventCache.lookup eventName with
  | some event => (.ok event, s)
  | none =>
    match if fails then none else EventRepository.getEventByName eventName s.events with
    | some event => (.ok event, { s with eventCache := emplace eventName event s.eventCache })
    | none => (.error (.invalidArgument "Event not found"), s)

end EventService

/-! ### The cache and the table -/

section Coherent

variable {s : EventState coll} {eventName : Text} {event : Event}

/-- The cache has for each of its names the event that the table has. -/
def Coherent (s : EventState coll) : Prop := ∀ n event, (n, event) ∈ s.eventCache →
  EventRepository.getEventByName n s.events = some event

theorem of_mem_emplace {α : Type} {k : Text} {v : α} {m : List (Text × α)} {x : Text × α}
    (h : x ∈ emplace k v m) : x = (k, v) ∨ x ∈ m := by
  induction m with
  | nil => exact .inl (List.mem_singleton.1 h)
  | cons kv m ih =>
    unfold emplace at h
    split at h
    · exact .inr h
    · split at h
      · exact List.mem_cons.1 h
      · rcases List.mem_cons.1 h with rfl | h
        · exact .inr List.mem_cons_self
        · exact (ih h).imp_right (List.mem_cons_of_mem _)

/-- After the start the cache has the table. -/
theorem coherent_init (events : EventDB coll) : Coherent (EventService.init events) := by
  have hrows : ∀ (l : List Event) (m : List (Text × Event)), (∀ e ∈ l, e ∈ events) →
      (∀ n event, (n, event) ∈ m → EventRepository.getEventByName n events = some event) →
      ∀ n event, (n, event) ∈ l.foldl (fun m e => emplace e.name e m) m →
        EventRepository.getEventByName n events = some event := by
    intro l
    induction l with
    | nil => exact fun m _ hm => hm
    | cons e l ih =>
      intro m hl hm
      refine ih _ (fun e' he' => hl e' (List.mem_cons_of_mem _ he')) ?_
      intro n event hmem
      rcases of_mem_emplace hmem with heq | hmem
      · cases heq
        exact Table.find?_eq_some.2 ⟨hl e List.mem_cons_self, rfl⟩
      · exact hm n event hmem
  exact hrows events.rows [] (fun _ he => he) (fun _ _ h => absurd h List.not_mem_nil)

theorem getEventByName_events (fails : Bool) (eventName : Text) (s : EventState coll) :
    (EventService.getEventByName fails eventName s).2.events = s.events := by
  unfold EventService.getEventByName
  split
  · rfl
  · split <;> rfl

theorem Coherent.lookup (h : Coherent s) (hl : s.eventCache.lookup eventName = some event) :
    EventRepository.getEventByName eventName s.events = some event := by
  obtain ⟨l₁, l₂, hc, -⟩ := List.lookup_eq_some_iff.1 hl
  exact h eventName event (by simp [hc])

/-- Through the cache a name finds what it finds in the table. -/
theorem Coherent.getEventByName (h : Coherent s) (eventName : Text) :
    (EventService.getEventByName false eventName s).1 =
      match EventRepository.getEventByName eventName s.events with
      | some event => .ok event
      | none => .error (.invalidArgument "Event not found") := by
  unfold EventService.getEventByName
  cases hl : s.eventCache.lookup eventName with
  | some event =>
    rw [h.lookup hl]
  | none =>
    simp only [Bool.false_eq_true, if_false]
    cases EventRepository.getEventByName eventName s.events <;> rfl

theorem Coherent.step (h : Coherent s) (fails : Bool) (eventName : Text) :
    Coherent (EventService.getEventByName fails eventName s).2 := by
  unfold EventService.getEventByName
  split
  · exact h
  · split
    · next event hfound =>
      intro n event' hmem
      rcases of_mem_emplace hmem with heq | hmem
      · cases heq
        cases fails with
        | true => cases hfound
        | false => exact hfound
      · exact h n event' hmem
    · exact h

end Coherent

inductive EventCall
  | getEventByName (eventName : Text)
  | getEventCache
  deriving DecidableEq

namespace EventCall

@[reducible] def Answer : EventCall → Type
  | getEventByName _ => Event
  | getEventCache => List (Text × Event)

def serve (fails : Bool) : (c : EventCall) → EventState coll → Except Exn c.Answer × EventState coll
  | getEventByName n, s => EventService.getEventByName fails n s
  | getEventCache, s => (.ok s.eventCache, s)

theorem coherent_serve {s : EventState coll} (h : Coherent s) (fails : Bool) (c : EventCall) :
    Coherent (c.serve fails s).2 := by
  cases c with
  | getEventByName n => exact h.step fails n
  | getEventCache => exact h

end EventCall

end TicketIST
