import TicketIST.Browsing

/-!
# The cache of events

`EventService` puts events into its cache in two places: the constructor under the name that an event
has, `getEventByName` under the name that it was asked for.  The table compares names by their
collation, the cache compares them exactly; so an event that is asked for in another spelling is in the
cache twice, and the list of available events has it twice (`event_listed_twice`).

What a name finds is right all the same.  Over a table that grows, the cache answers as the table does;
and exactly as long as every event is asked for by its own name, every entry is under its event's name
and every event is listed once (`cache_coherent_iff`).
-/

namespace TicketIST

open TicketIST.Lib ServerOp

variable {coll sha : Text → Text}

/-! ### Runs -/

/-- An event goes into the table, unless its name is taken; or somebody asks for an event. -/
inductive EventStep
  | insert (event : Event)
  | getEventByName (eventName : Text)

namespace EventStep

def next (s : EventState coll) : EventStep → EventState coll
  | insert event => { s with events := (s.events.insert event).getD s.events }
  | getEventByName eventName => (EventService.getEventByName false eventName s).2

/-- The state after the steps, from the constructor on. -/
def run (events : EventDB coll) (steps : List EventStep) : EventState coll :=
  steps.foldl next (EventService.init events)

end EventStep

/-- What `getEventByName` answers where the repository answers `found`. -/
def orNotFound : Option Event → Except Exn Event
  | some event => .ok event
  | none => .error (.invalidArgument "Event not found")

/-- The message with the names of the events. -/
def eventNotFound (names : List Text) : Text :=
  "Event not found. Available events are: ".toList ++ ", ".toList.intercalate names ++ ['\n']

/-- What the cache is for: it answers as the table does, has every event once, under the event's name,
and the message that lists its names has no two for the same event. -/
structure CacheCoherent (s : EventState coll) : Prop where
  answers : ∀ eventName, (EventService.getEventByName false eventName s).1 =
    orNotFound (EventRepository.getEventByName eventName s.events)
  ownName : ∀ eventName event, (eventName, event) ∈ s.eventCache → eventName = event.name
  once : (s.eventCache.map Prod.snd).Nodup
  listed : ∀ (sha : Text → Text) (sur : Surroundings) (server : Server coll), server.events = s →
    ∃ names, ((handleGetAvailableTicketsError sur).run (exec sha) server).1 =
      .ok (eventNotFound names) ∧ (names.map coll).Nodup

/-- The name is the one that the event it finds has in the table, if it finds one. -/
def AsStored (s : EventState coll) (eventName : Text) : Prop :=
  ∀ event, EventRepository.getEventByName eventName s.events = some event → eventName = event.name

/-! ### The message -/

theorem flatMap_separated (sep : Text) {names : List Text} (h : names ≠ []) :
    names.flatMap (· ++ sep) = sep.intercalate names ++ sep := by
  induction names with
  | nil => exact absurd rfl h
  | cons n names ih =>
    cases names with
    | nil => simp
    | cons n' names =>
      rw [List.flatMap_cons, ih (List.cons_ne_nil _ _), List.intercalate_cons_cons]
      simp only [List.append_assoc]

/-- The list in the message, after its last separator is taken off. -/
theorem dropLast_separated {intro : Text} (cache : List (Text × Event)) :
    (if cache.isEmpty then intro ++ cache.flatMap fun e => e.1 ++ ", ".toList
      else (intro ++ cache.flatMap fun e => e.1 ++ ", ".toList).dropLast.dropLast) =
      intro ++ ", ".toList.intercalate (cache.map Prod.fst) := by
  cases cache with
  | nil => rfl
  | cons e cache =>
    have hflat := flatMap_separated ", ".toList (List.cons_ne_nil e.1 (cache.map Prod.fst))
    rw [← List.map_cons (f := Prod.fst), List.flatMap_map] at hflat
    rw [hflat, ← List.append_assoc]
    simp

/-- What a failed request for an event is answered with. -/
theorem run_handleGetAvailableTicketsError (sur : Surroundings) (s : Server coll) :
    ((handleGetAvailableTicketsError sur).run (exec sha) s).1 =
      .ok (eventNotFound (s.events.eventCache.map Prod.fst)) := by
  have hcall : exec sha (eventService sur.eventFails .getEventCache) s =
      (.ok s.events.eventCache, s) := rfl
  simp only [handleGetAvailableTicketsError, callEvents, Prog.call_bind, Prog.run_call, hcall,
    Prog.ofExcept_ok, Prog.ret_bind, Prog.pure_eq, Prog.run_ret]
  exact congrArg (fun text => Except.ok (text ++ ['\n'])) (dropLast_separated _)

/-! ### What the cache keeps -/

theorem emplace_sorted {α : Type} {k : Text} {v : α} {m : List (Text × α)}
    (h : (m.map Prod.fst).Pairwise (· < ·)) : ((emplace k v m).map Prod.fst).Pairwise (· < ·) := by
  induction m with
  | nil => exact List.pairwise_singleton ..
  | cons kv m ih =>
    obtain ⟨k', v'⟩ := kv
    have hcons := List.pairwise_cons.1 h
    unfold emplace
    split
    · exact h
    · next hne =>
      split
      · next hlt =>
        refine List.pairwise_cons.2 ⟨fun k'' hk'' => ?_, h⟩
        rcases List.mem_cons.1 hk'' with rfl | hk''
        · exact hlt
        · exact hlt.trans (hcons.1 k'' hk'')
      · next hnlt =>
        refine List.pairwise_cons.2 ⟨fun k'' hk'' => ?_, ih hcons.2⟩
        obtain ⟨x, hx, rfl⟩ := List.mem_map.1 hk''
        rcases of_mem_emplace hx with rfl | hx
        · exact lt_of_le_of_ne (not_lt.1 hnlt) (Ne.symm hne)
        · exact hcons.1 _ (List.mem_map_of_mem hx)

theorem mem_emplace {α : Type} {k : Text} {v : α} {m : List (Text × α)} (hk : k ∉ m.map Prod.fst) :
    (k, v) ∈ emplace k v m := by
  induction m with
  | nil => exact List.mem_singleton_self _
  | cons kv m ih =>
    rw [List.map_cons, List.mem_cons, not_or] at hk
    unfold emplace
    rw [if_neg hk.1]
    split
    · exact List.mem_cons_self
    · exact List.mem_cons_of_mem _ (ih hk.2)

/-- The entries are in the order of their names, and each is under its event's name. -/
structure Named (cache : List (Text × Event)) : Prop where
  sorted : (cache.map Prod.fst).Pairwise (· < ·)
  ownName : ∀ eventName event, (eventName, event) ∈ cache → eventName = event.name

theorem Named.emplace {cache : List (Text × Event)} (h : Named cache) (event : Event) :
    Named (emplace event.name event cache) where
  sorted := emplace_sorted h.sorted
  ownName eventName event' hmem := by
    rcases of_mem_emplace hmem with heq | hmem
    · cases heq
      rfl
    · exact h.ownName eventName event' hmem

/-- After the start the cache has the events under their names. -/
theorem named_init (events : EventDB coll) : Named (EventService.init events).eventCache := by
  have hrows : ∀ (l : List Event) (m : List (Text × Event)), Named m →
      Named (l.foldl (fun m e => TicketIST.emplace e.name e m) m) := by
    intro l
    induction l with
    | nil => exact fun m hm => hm
    | cons e l ih => exact fun m hm => ih _ (hm.emplace e)
  exact hrows events.rows [] ⟨List.Pairwise.nil, fun _ _ h => absurd h List.not_mem_nil⟩

section Steps

variable {s : EventState coll} {eventName : Text} {event : Event}

/-- What a row that is in the table answers, it answers when the table has grown. -/
theorem getEventByName_insert {events' : EventDB coll} {row : Event}
    (hi : s.events.insert row = some events')
    (h : EventRepository.getEventByName eventName s.events = some event) :
    EventRepository.getEventByName eventName events' = some event := by
  obtain ⟨hmem, hk⟩ := Table.find?_eq_some.1 h
  exact Table.find?_eq_some.2 ⟨(Table.mem_insert hi).2 (.inl hmem), hk⟩

/-- The cache agrees with the table after every step, in whatever spelling events are asked for. -/
theorem Coherent.next (h : Coherent s) (step : EventStep) : Coherent (step.next s) := by
  cases step with
  | getEventByName n => exact h.step false n
  | insert row =>
    intro n event hmem
    show EventRepository.getEventByName n ((s.events.insert row).getD s.events) = some event
    cases hi : s.events.insert row with
    | none => exact h n event hmem
    | some events' => exact getEventByName_insert hi (h n event hmem)

/-- An event that is asked for by its own name goes into the cache under it. -/
theorem Named.next (h : Named s.eventCache) {step : EventStep}
    (hname : ∀ n, step = .getEventByName n → AsStored s n) : Named (step.next s).eventCache := by
  cases step with
  | insert row => exact h
  | getEventByName n =>
    show Named (EventService.getEventByName false n s).2.eventCache
    unfold EventService.getEventByName
    split
    · exact h
    · simp only [Bool.false_eq_true, if_false]
      split
      · next event hfound =>
        rw [hname n rfl event hfound]
        exact h.emplace event
      · exact h

theorem answers_of_coherent (h : Coherent s) (n : Text) :
    (EventService.getEventByName false n s).1 =
      orNotFound (EventRepository.getEventByName n s.events) := by
  rw [h.getEventByName n]
  cases EventRepository.getEventByName n s.events <;> rfl

/-- With every entry under its event's name, no event is there twice. -/
theorem cacheCoherent_of_named (h : Coherent s) (hn : Named s.eventCache) : CacheCoherent s := by
  have hkeys : (s.eventCache.map Prod.fst).Nodup := hn.sorted.imp fun hlt => hlt.ne
  have hnames : s.eventCache.map Prod.fst = (s.eventCache.map Prod.snd).map Event.name := by
    rw [List.map_map]
    exact List.map_congr_left fun e he => hn.ownName e.1 e.2 he
  constructor
  case answers => exact answers_of_coherent h
  case ownName => exact hn.ownName
  case once => exact .of_map Event.name (hnames ▸ hkeys)
  case listed =>
    rintro sha sur server rfl
    refine ⟨_, run_handleGetAvailableTicketsError sur server, ?_⟩
    refine List.Nodup.map_on ?_ hkeys
    -- the names are those of rows, and a name that two rows have is that of one row
    intro n hmem n' hmem' hcoll
    obtain ⟨⟨n, event⟩, he, rfl⟩ := List.mem_map.1 hmem
    obtain ⟨⟨n', event'⟩, he', rfl⟩ := List.mem_map.1 hmem'
    have heq : some event = some event' := by
      rw [← h n event he, ← h n' event' he']
      exact congrArg server.events.events.find? hcoll
    obtain rfl := Option.some.inj heq
    rw [hn.ownName n event he, hn.ownName n' event he']

/-- Another spelling, when it is not in the cache, leaves an entry under it. -/
theorem mem_cache_of_found (hfound : EventRepository.getEventByName eventName s.events = some event)
    (hmiss : s.eventCache.lookup eventName = none) :
    (eventName, event) ∈ (EventService.getEventByName false eventName s).2.eventCache := by
  unfold EventService.getEventByName
  rw [hmiss]
  simp only [Bool.false_eq_true, if_false, hfound]
  refine mem_emplace fun hmem => ?_
  obtain ⟨e, he, heq⟩ := List.mem_map.1 hmem
  exact absurd heq.symm (by simpa using List.lookup_eq_none_iff.1 hmiss e he)

end Steps

/-! ### Every run -/

section Run

variable {events : EventDB coll} {steps : List EventStep}

theorem run_snoc (events : EventDB coll) (l : List EventStep) (step : EventStep) :
    EventStep.run events (l ++ [step]) = step.next (EventStep.run events l) := by
  rw [EventStep.run, List.foldl_append]
  rfl

theorem coherent_run_events (events : EventDB coll) (l : List EventStep) :
    Coherent (EventStep.run events l) := by
  induction l using List.reverseRecOn with
  | nil => exact coherent_init events
  | append_singleton l step ih =>
    rw [run_snoc]
    exact ih.next step

theorem named_run
    (h : ∀ l n, l ++ [.getEventByName n] <+: steps → AsStored (EventStep.run events l) n)
    {l : List EventStep} (hl : l <+: steps) : Named (EventStep.run events l).eventCache := by
  induction l using List.reverseRecOn with
  | nil => exact named_init events
  | append_singleton l step ih =>
    rw [run_snoc]
    refine (ih ((List.prefix_append l [step]).trans hl)).next ?_
    rintro n rfl
    exact h l n hl

/-- **The cache of events is coherent exactly as long as events are asked for as they are stored.** -/
theorem cache_coherent_iff (events : EventDB coll) (steps : List EventStep) :
    (∀ l, l <+: steps → CacheCoherent (EventStep.run events l)) ↔
      ∀ l eventName, l ++ [.getEventByName eventName] <+: steps →
        AsStored (EventStep.run events l) eventName := by
  constructor
  · intro h l n hl event hfound
    have hcoherent := coherent_run_events events l
    cases hcache : (EventStep.run events l).eventCache.lookup n with
    | some event' =>
      -- the name is in the cache, where it stands for the same event
      obtain ⟨l₁, l₂, hmem, -⟩ := List.lookup_eq_some_iff.1 hcache
      obtain rfl := Option.some.inj (hfound.symm.trans (hcoherent.lookup hcache))
      exact (h l ((List.prefix_append l _).trans hl)).ownName n event (by simp [hmem])
    | none =>
      -- it goes into the cache now
      have hnext := h (l ++ [.getEventByName n]) hl
      rw [run_snoc] at hnext
      exact hnext.ownName n event (mem_cache_of_found hfound hcache)
  · intro h l hl
    exact cacheCoherent_of_named (coherent_run_events events l) (named_run h hl)

end Run

/-- The table of the server that `opened` starts, and one request in another spelling. -/
def shouted : EventState lower :=
  EventStep.run opened.events.events [.getEventByName (websummit.map Char.toUpper)]

/-- The event is in the cache twice, and is listed twice. -/
theorem event_listed_twice :
    shouted.eventCache.map Prod.snd = [⟨1, websummit⟩, ⟨1, websummit⟩] ∧
      ((handleGetAvailableTicketsError (surroundings 0)).run (exec sha256)
          { opened with events := shouted }).1 =
        .ok "Event not found. Available events are: WEBSUMMIT, websummit\n".toList ∧
      ¬∀ l, l <+: [.getEventByName (websummit.map Char.toUpper)] →
        CacheCoherent (EventStep.run opened.events.events l) := by
  refine ⟨by decide +kernel, by decide +kernel, fun h => ?_⟩
  have honce := (h _ List.prefix_rfl).once
  revert honce
  decide +kernel

end TicketIST
