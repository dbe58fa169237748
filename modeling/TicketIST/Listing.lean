import TicketIST.Controller
import TicketIST.Lib.Rendering

/-!
# The list of tickets

What is on offer for an event is sent as a text: a title, and for each ticket a line of five columns
between two rules.  Read line by line and column by column, the text gives the tickets back, each of them
once and no other (`lists_availableTickets`).  The lines are found at the line breaks if neither the name
of the event nor a seat has a line break of its own; then the numbers that the lines begin with are those
of the tickets.
-/

namespace TicketIST

open TicketIST.Lib

/-! ### A line -/

/-- The columns of a line with `n` bars: what stands between them, without the blanks that fill up a
column and without the blank before a bar. -/
def columns : ℕ → Text → List Text
  | 0, line => [line.dropWhile (· = ' ')]
  | n + 1, line =>
    match cut '|' line with
    | none => [line.dropWhile (· = ' ')]
    | some (column, rest) => (column.dropWhile (· = ' ')).dropLast :: columns n rest

/-- What a line shows of a ticket. -/
def TicketInfo.columns (ti : TicketInfo) : List Text :=
  [showInt ti.ticketID, showInt ti.eventID, showInt ti.sellerID, showFixed2 ti.price ++ ['€'],
    ti.seat.dropWhile (· = ' ')]

/-- A text that a column can be told from. -/
structure IsWord (text : Text) : Prop where
  ne_nil : text ≠ []
  mem : ∀ c ∈ text, c ≠ ' ' ∧ c ≠ '|'

theorem dropWhile_blanks (n : ℕ) (text : Text) :
    (List.replicate n ' ' ++ text).dropWhile (· = ' ') = text.dropWhile (· = ' ') :=
  List.dropWhile_append_of_pos fun _ hc => decide_eq_true (List.eq_of_mem_replicate hc)

theorem columns_word {text : Text} (h : IsWord text) (b n : ℕ) (rest : Text) :
    columns (n + 1) (List.replicate b ' ' ++ (text ++ ' ' :: '|' :: rest)) =
      text :: columns n rest := by
  have hbar : '|' ∉ List.replicate b ' ' ++ (text ++ [' ']) := by
    intro hc
    rcases List.mem_append.1 hc with hc | hc
    · exact absurd (List.eq_of_mem_replicate hc) (by decide)
    · rcases List.mem_append.1 hc with hc | hc
      · exact (h.mem _ hc).2 rfl
      · exact absurd (List.mem_singleton.1 hc) (by decide)
  have hline : List.replicate b ' ' ++ (text ++ ' ' :: '|' :: rest) =
      (List.replicate b ' ' ++ (text ++ [' '])) ++ '|' :: rest := by simp
  have hword : (text ++ [' ']).dropWhile (· = ' ') = text ++ [' '] := by
    obtain ⟨c, text, rfl⟩ := List.exists_cons_of_ne_nil h.ne_nil
    exact List.dropWhile_cons_of_neg (by simpa using (h.mem c List.mem_cons_self).1)
  rw [hline, columns, cut_append hbar]
  dsimp only
  rw [dropWhile_blanks, hword, List.dropLast_concat]

theorem isWord_showInt (n : ℤ) : IsWord (showInt n) where
  ne_nil := by
    cases n with
    | ofNat n => exact Nat.toDigits_ne_nil
    | negSucc n => exact List.cons_ne_nil _ _
  mem c hc := by
    rcases mem_showInt hc with hd | rfl
    · constructor <;> rintro rfl <;> cases hd
    · decide

theorem mem_showFixed2 {d : Double} {c : Char} (h : c ∈ showFixed2 d) :
    c.isDigit = true ∨ c ∈ ['.', '-', 'i', 'n', 'f', 'a'] := by
  have hdigits : ∀ {n : ℕ}, c ∈ Nat.toDigits 10 n → c.isDigit = true := isDigit_of_mem_toDigits
  cases d with
  | fin d =>
    rcases List.mem_append.1 h with h | h
    · rcases List.mem_append.1 h with h | h
      · split at h
        · exact .inr (by rw [List.mem_singleton.1 h]; decide)
        · exact absurd h List.not_mem_nil
      · exact .inl (hdigits h)
    · rcases List.mem_cons.1 h with rfl | h
      · exact .inr (by decide)
      · rcases List.mem_append.1 h with h | h
        · exact .inl (isDigit_replicate_zero c h)
        · exact .inl (hdigits h)
  | inf neg =>
    have hall : (showFixed2 (.inf neg)).all (· ∈ ['.', '-', 'i', 'n', 'f', 'a']) := by
      cases neg <;> decide
    exact .inr (of_decide_eq_true (List.all_eq_true.1 hall c h))
  | nan neg =>
    have hall : (showFixed2 (.nan neg)).all (· ∈ ['.', '-', 'i', 'n', 'f', 'a']) := by
      cases neg <;> decide
    exact .inr (of_decide_eq_true (List.all_eq_true.1 hall c h))

theorem isWord_price (d : Double) : IsWord (showFixed2 d ++ ['€']) where
  ne_nil := by simp
  mem c hc := by
    rcases List.mem_append.1 hc with hc | hc
    · rcases mem_showFixed2 hc with hd | hc
      · constructor <;> rintro rfl <;> cases hd
      · constructor <;> rintro rfl <;> exact absurd hc (by decide)
    · rw [List.mem_singleton.1 hc]
      decide

/-- The line of a ticket, with the blanks that are put before its columns. -/
theorem exists_blanks (ti : TicketInfo) : ∃ b₁ b₂ b₃ b₄ b₅ : ℕ, ti.toString =
    List.replicate b₁ ' ' ++ (showInt ti.ticketID ++ ' ' :: '|' ::
      (List.replicate b₂ ' ' ++ (showInt ti.eventID ++ ' ' :: '|' ::
        (List.replicate b₃ ' ' ++ (showInt ti.sellerID ++ ' ' :: '|' ::
          (List.replicate b₄ ' ' ++ ((showFixed2 ti.price ++ ['€']) ++ ' ' :: '|' ::
            (List.replicate b₅ ' ' ++ ti.seat)))))))) := by
  refine ⟨10 - (showInt ti.ticketID).length, 10 - (showInt ti.eventID).length + 1,
    10 - (showInt ti.sellerID).length + 1, 10 - (showFixed2 ti.price).length + 1,
    5 - ti.seat.length + 1, ?_⟩
  have hbar : " | ".toList = [' ', '|', ' '] := rfl
  have heuro : "€ | ".toList = ['€', ' ', '|', ' '] := rfl
  simp only [TicketInfo.toString, setw, hbar, heuro, List.replicate_succ, List.append_assoc,
    List.cons_append, List.nil_append]

/-- **A line shows its ticket.** -/
theorem columns_toString (ti : TicketInfo) : columns 4 ti.toString = ti.columns := by
  obtain ⟨b₁, b₂, b₃, b₄, b₅, hline⟩ := exists_blanks ti
  rw [hline, columns_word (isWord_showInt _), columns_word (isWord_showInt _),
    columns_word (isWord_showInt _), columns_word (isWord_price _), columns, dropWhile_blanks]
  rfl

theorem strtol_blanks (n : ℕ) (text : Text) :
    strtol (List.replicate n ' ' ++ text) = strtol text := by
  unfold strtol
  rw [List.dropWhile_append_of_pos fun c hc => ?_]
  rw [List.eq_of_mem_replicate hc]
  rfl

/-- It begins with the number of its ticket. -/
theorem strtol_toString (ti : TicketInfo) : strtol ti.toString = some ti.ticketID := by
  obtain ⟨b₁, b₂, b₃, b₄, b₅, hline⟩ := exists_blanks ti
  rw [hline, strtol_blanks]
  refine strtol_numeral (intNumeral_showInt _) ?_
  rintro c ⟨⟩
  rfl

theorem break_not_mem_toString {ti : TicketInfo} (h : '\n' ∉ ti.seat) : '\n' ∉ ti.toString := by
  have hint : ∀ n : ℤ, '\n' ∉ showInt n := by
    intro n hn
    rcases mem_showInt hn with hd | hd <;> cases hd
  have hprice : '\n' ∉ showFixed2 ti.price := by
    intro hn
    rcases mem_showFixed2 hn with hd | hd
    · cases hd
    · exact absurd hd (by decide)
  obtain ⟨b₁, b₂, b₃, b₄, b₅, hline⟩ := exists_blanks ti
  rw [hline]
  simp [List.mem_replicate, hint, hprice, h]

/-! ### The text -/

/-- The lines of the list, where `rows` are those of the tickets. -/
def listLines (event : Event) (rows : List Text) : List Text :=
  if rows = [] then ["No available tickets for ".toList ++ event.name ++ ['.']]
  else
    ["Available tickets for ".toList ++ event.name ++ [':'],
      "TicketID   | EventID    | SellerID   | Price       | Seat  ".toList,
      "-----------------------------------------------------------".toList] ++ rows ++
    ["-----------------------------------------------------------".toList]

/-- The numbers that the lines of the tickets begin with. -/
def listedIds (text : Text) : List ℤ :=
  (((text.splitOn '\n').drop 3).dropLast.dropLast).filterMap strtol

/-- Nothing breaks a line of the list. -/
structure OneLined (event : Event) (l : List TicketInfo) : Prop where
  name : '\n' ∉ event.name
  seat : ∀ ti ∈ l, '\n' ∉ ti.seat

/-- The text lists the tickets `l` of the event. -/
structure Lists (text : Text) (event : Event) (l : List TicketInfo) : Prop where
  /-- it has a line for each of them, with its columns, and no other -/
  rows : ∃ rows : List Text, text = (listLines event rows).flatMap (· ++ ['\n']) ∧
    rows.map (columns 4) = l.map TicketInfo.columns
  /-- so their numbers can be read from it, where its lines can be told -/
  ids : OneLined event l → listedIds text = l.map TicketInfo.ticketID

theorem splitOn_lines {lines : List Text} (h : ∀ line ∈ lines, '\n' ∉ line) :
    (lines.flatMap (· ++ ['\n'])).splitOn '\n' = lines ++ [[]] := by
  induction lines with
  | nil => rfl
  | cons line lines ih =>
    rw [List.flatMap_cons, List.append_assoc, List.singleton_append,
      List.splitOn_append_cons_self_of_not_mem (h line List.mem_cons_self),
      ih fun line hline => h line (List.mem_cons_of_mem _ hline), List.cons_append]

theorem availableTickets_eq (event : Event) (l : List TicketInfo) :
    availableTickets event l =
      (listLines event (l.map TicketInfo.toString)).flatMap (· ++ ['\n']) := by
  cases l with
  | nil => simp [availableTickets, listLines]
  | cons ti l =>
    simp [availableTickets, listLines, List.flatMap_map]

theorem listLines_oneLined {event : Event} {l : List TicketInfo} (h : OneLined event l) :
    ∀ line ∈ listLines event (l.map TicketInfo.toString), '\n' ∉ line := by
  have hrow : ∀ row ∈ l.map TicketInfo.toString, '\n' ∉ row := by
    intro row hrow
    obtain ⟨ti, hti, rfl⟩ := List.mem_map.1 hrow
    exact break_not_mem_toString (h.seat ti hti)
  have hname := h.name
  intro line hline
  unfold listLines at hline
  split at hline
  · rw [List.mem_singleton.1 hline]
    simp [hname]
  · rcases List.mem_append.1 hline with hline | hline
    · rcases List.mem_append.1 hline with hline | hline
      · simp only [List.mem_cons, List.not_mem_nil, or_false] at hline
        rcases hline with rfl | rfl | rfl
        · simp [hname]
        · decide
        · decide
      · exact hrow line hline
    · rw [List.mem_singleton.1 hline]
      decide

theorem filterMap_strtol (l : List TicketInfo) :
    (l.map TicketInfo.toString).filterMap strtol = l.map TicketInfo.ticketID := by
  induction l with
  | nil => rfl
  | cons ti l ih =>
    rw [List.map_cons, List.filterMap_cons_some (strtol_toString ti), ih, List.map_cons]

/-- The rows stand behind three lines, and before a rule and the end of the text. -/
theorem rows_of_lines (title header rule last : Text) (rows : List Text) :
    ((([title, header, rule] ++ rows ++ [rule]) ++ [last]).drop 3).dropLast.dropLast = rows := by
  have hdrop : (([title, header, rule] ++ rows ++ [rule]) ++ [last]).drop 3 =
      (rows ++ [rule]) ++ [last] := rfl
  rw [hdrop, List.dropLast_concat, List.dropLast_concat]

/-- **The text that is sent lists the tickets that it is made of**, and no others. -/
theorem lists_availableTickets (event : Event) (l : List TicketInfo) :
    Lists (availableTickets event l) event l where
  rows := by
    refine ⟨_, availableTickets_eq event l, ?_⟩
    rw [List.map_map]
    exact List.map_congr_left fun ti _ => columns_toString ti
  ids h := by
    rw [listedIds, availableTickets_eq, splitOn_lines (listLines_oneLined h)]
    cases l with
    | nil => rfl
    | cons ti l =>
      have hne : (ti :: l).map TicketInfo.toString ≠ [] := List.cons_ne_nil _ _
      rw [listLines, if_neg hne, rows_of_lines, filterMap_strtol]

example : listedIds (availableTickets { id := 1, name := websummit } [seat 7 "86L", seat 8 "88L"]) =
    [7, 8] := by decide +kernel

end TicketIST
