import BlockGraph.Proofs.Transcripts
/-!
Writing: which values can be written as JSON, and at which part the writing of all others breaks off. A value is
written part by part; the first part that has no form in JSON, and no text that stands for it, gives the fault of the
whole.
-/
namespace BlockGraph.Json

/-! ### Writers -/

section

variable {first second : Writer Unit} {f : Fault} {s : String}

/-- A writer that writes all it has to. -/
def Finishes (w : Writer Unit) : Prop := ∃ text, Writes w text

/-- A writer that breaks off with a fault, after whatever it has written before. -/
def Breaks (w : Writer Unit) (f : Fault) : Prop :=
  ∃ text, ∀ s, w.run.run s = (.error f, s ++ String.ofList text)

theorem Finishes.piece (text : String) : Finishes (put text) := ⟨_, .piece text⟩

theorem Finishes.seq (h : Finishes first) (h' : Finishes second) : Finishes (do first; second) := by
  obtain ⟨text, writes⟩ := h
  obtain ⟨more, writes'⟩ := h'
  exact ⟨_, writes.seq writes'⟩

theorem Breaks.early (h : Breaks first f) (second : Writer Unit) : Breaks (do first; second) f := by
  obtain ⟨text, breaks⟩ := h
  refine ⟨text, fun s => ?_⟩
  simp only [ExceptT.run_bind, StateT.run_bind, breaks s]
  rfl

theorem Finishes.breaks (h : Finishes first) (h' : Breaks second f) : Breaks (do first; second) f := by
  obtain ⟨text, writes⟩ := h
  obtain ⟨more, breaks⟩ := h'
  refine ⟨text ++ more, fun s => ?_⟩
  have parts : (do first; second : Writer Unit).run.run s = second.run.run (s ++ String.ofList text) := by
    simp only [ExceptT.run_bind, StateT.run_bind, writes s]
    rfl
  rw [parts, breaks, String.ofList_append, String.append_assoc]

/-- What is to be written is there. -/
theorem Finishes.taking {text : Except Fault String} {rest : String → Writer Unit} (there : text = .ok s)
    (h : Finishes (rest s)) : Finishes (do rest (← text)) := by
  subst there
  exact h

theorem Breaks.having {text : Except Fault String} {rest : String → Writer Unit} (there : text = .ok s)
    (h : Breaks (rest s) f) : Breaks (do rest (← text)) f := by
  subst there
  exact h

/-- What is to be written is not there. -/
theorem Breaks.lacking {text : Except Fault String} (rest : String → Writer Unit) (fails : text = .error f) :
    Breaks (do rest (← text)) f := by
  subst fails
  refine ⟨[], fun s => ?_⟩
  rw [String.ofList_nil, String.append_empty]
  rfl

end

/-! ### What can be written -/

/-- Whether a value can be the key of an entry. -/
def IsKey : Value → Prop
  | .null | .bool _ | .float _ | .text _ => True
  | .int n => n.natAbs < digitBound
  | _ => False

/-- The fault of a value that cannot be a key. -/
def keyFault : Value → Fault
  | .int _ => .digitLimit
  | k => .keyKind k.kindName

/-- Whether JSON has a form for values of this kind. -/
def HasForm : Value → Prop
  | .set _ | .frozenset _ | .foreign _ => False
  | _ => True

theorem keyText_of_isKey {k : Value} (key : IsKey k) : ∃ s, keyText k = .ok s := by
  cases k with
  | int n => exact ⟨_, integerText_short key⟩
  | null | bool _ | float _ | text _ => exact ⟨_, rfl⟩
  | _ => exact key.elim

theorem keyText_of_not_isKey {k : Value} (key : ¬IsKey k) : keyText k = .error (keyFault k) := by
  cases k with
  | int n => exact integerText_long key
  | null | bool _ | float _ | text _ => exact absurd trivial key
  | _ => rfl

section

variable (layout : Layout) (other : Value → Except Fault String)

/-- Whether every part of a value can be written. -/
inductive Writable : Value → Prop
  | null : Writable .null
  | bool (b : Bool) : Writable (.bool b)
  | int {n : Int} (short : n.natAbs < digitBound) : Writable (.int n)
  | float {x : Double} (fits : layout.finiteOnly = true → x.isFinite = true) : Writable (.float x)
  | text (s : String) : Writable (.text s)
  | list {items : List Value} (each : ∀ v ∈ items, Writable v) : Writable (.list items)
  | tuple {items : List Value} (each : ∀ v ∈ items, Writable v) : Writable (.tuple items)
  | mapping {entries : Entries} (keys : ∀ e ∈ entries, IsKey e.1) (each : ∀ e ∈ entries, Writable e.2) :
      Writable (.mapping entries)
  | other {v : Value} {s : String} (formless : ¬HasForm v) (shown : other v = .ok s) : Writable v

/-- Whether a value cannot be written, for the fault that its first part of this kind gives. -/
inductive Blocked : Value → Fault → Prop
  | int {n : Int} (long : ¬n.natAbs < digitBound) : Blocked (.int n) .digitLimit
  | float {x : Double} (strict : layout.finiteOnly = true) (wild : x.isFinite = false) : Blocked (.float x) .notFinite
  | list {before after : List Value} {v : Value} {f : Fault} (front : ∀ u ∈ before, Writable layout other u)
      (here : Blocked v f) : Blocked (.list (before ++ v :: after)) f
  | tuple {before after : List Value} {v : Value} {f : Fault} (front : ∀ u ∈ before, Writable layout other u)
      (here : Blocked v f) : Blocked (.tuple (before ++ v :: after)) f
  | key {before after : Entries} {k v : Value} (front : ∀ e ∈ before, IsKey e.1 ∧ Writable layout other e.2)
      (here : ¬IsKey k) : Blocked (.mapping (before ++ (k, v) :: after)) (keyFault k)
  | entry {before after : Entries} {k v : Value} {f : Fault}
      (front : ∀ e ∈ before, IsKey e.1 ∧ Writable layout other e.2) (key : IsKey k) (here : Blocked v f) :
      Blocked (.mapping (before ++ (k, v) :: after)) f
  | other {v : Value} {f : Fault} (formless : ¬HasForm v) (unshown : other v = .error f) : Blocked v f

end

/-! ### Writing comes to that -/

section

variable {layout : Layout} {other : Value → Except Fault String} {v : Value} {f : Fault}

theorem write_formless (formless : ¬HasForm v) (level : Nat) :
    write layout other level v = (do put (stringText layout (← other v))) := by
  cases v with
  | set _ | frozenset _ | foreign _ => rfl
  | _ => exact absurd trivial formless

/-- An entry, and what comes behind it. -/
def entryThen (layout : Layout) (other : Value → Except Fault String) (level : Nat) (k v : Value)
    (more : Writer Unit) : Writer Unit := do
  put (stringText layout (← keyText k) ++ layout.keyGap)
  write layout other level v
  more

section

variable {k : Value} {more : Writer Unit} {level : Nat}

theorem entryThen_finishes (key : IsKey k) (first : Finishes (write layout other level v)) (others : Finishes more) :
    Finishes (entryThen layout other level k v more) := by
  obtain ⟨s, text⟩ := keyText_of_isKey key
  exact .taking text ((Finishes.piece _).seq (first.seq others))

theorem entryThen_breaks (key : IsKey k) (first : Finishes (write layout other level v)) (others : Breaks more f) :
    Breaks (entryThen layout other level k v more) f := by
  obtain ⟨s, text⟩ := keyText_of_isKey key
  exact .having text ((Finishes.piece _).breaks (first.breaks others))

theorem entryThen_lacks
    (here : ¬IsKey k ∧ keyFault k = f ∨ IsKey k ∧ Breaks (write layout other level v) f) :
    Breaks (entryThen layout other level k v more) f := by
  rcases here with ⟨key, rfl⟩ | ⟨key, here⟩
  · exact .lacking _ (keyText_of_not_isKey key)
  · obtain ⟨s, text⟩ := keyText_of_isKey key
    exact .having text ((Finishes.piece _).breaks (here.early _))

end

theorem finishes_items {items : List Value} (each : ∀ v ∈ items, ∀ level, Finishes (write layout other level v))
    (level : Nat) : Finishes (writeItems layout other level items) := by
  induction items with
  | nil => exact ⟨[], .nothing⟩
  | cons v rest ih =>
      obtain ⟨first, others⟩ := List.forall_mem_cons.mp each
      rw [writeItems]
      exact (Finishes.piece _).seq ((first level).seq (ih others))

theorem finishes_entries {entries : Entries} (keys : ∀ e ∈ entries, IsKey e.1)
    (each : ∀ e ∈ entries, ∀ level, Finishes (write layout other level e.2)) (level : Nat) :
    Finishes (writeEntries layout other level entries) := by
  induction entries with
  | nil => exact ⟨[], .nothing⟩
  | cons e rest ih =>
      obtain ⟨key, keys⟩ := List.forall_mem_cons.mp keys
      obtain ⟨first, others⟩ := List.forall_mem_cons.mp each
      exact (Finishes.piece _).seq (entryThen_finishes key (first level) (ih keys others))

/-- What can be written is written whole, at each level of indentation. -/
theorem Writable.finishes (h : Writable layout other v) : ∀ level, Finishes (write layout other level v) := by
  induction h with
  | null | bool | text => exact fun level => .piece _
  | int short => exact fun level => .taking (integerText_short short) (.piece _)
  | @float x fits =>
      intro level
      have written : ¬(layout.finiteOnly && !x.isFinite) = true := by
        rw [Bool.and_eq_true, Bool.not_eq_true']
        rintro ⟨strict, wild⟩
        rw [fits strict] at wild
        cases wild
      rw [write, if_neg written]
      exact .piece _
  | @list items each ih | @tuple items each ih =>
      intro level
      cases items with
      | nil => exact .piece _
      | cons v rest =>
          obtain ⟨first, others⟩ := List.forall_mem_cons.mp ih
          rw [write]
          exact (Finishes.piece _).seq ((first _).seq ((finishes_items others _).seq (.piece _)))
  | @mapping entries keys each ih =>
      intro level
      cases entries with
      | nil => exact .piece _
      | cons e rest =>
          obtain ⟨key, keys⟩ := List.forall_mem_cons.mp keys
          obtain ⟨first, others⟩ := List.forall_mem_cons.mp ih
          exact (Finishes.piece _).seq (entryThen_finishes key (first _)
            ((finishes_entries keys others _).seq (.piece _)))
  | other formless shown =>
      intro level
      rw [write_formless formless]
      exact .taking shown (.piece _)

theorem breaks_items {before after : List Value} (front : ∀ u ∈ before, Writable layout other u)
    (here : ∀ level, Breaks (write layout other level v) f) (level : Nat) :
    Breaks (writeItems layout other level (before ++ v :: after)) f := by
  induction before with
  | nil =>
      rw [List.nil_append, writeItems]
      exact (Finishes.piece _).breaks ((here level).early _)
  | cons u rest ih =>
      obtain ⟨first, others⟩ := List.forall_mem_cons.mp front
      rw [List.cons_append, writeItems]
      exact (Finishes.piece _).breaks ((first.finishes level).breaks (ih others))

theorem breaks_entries {before after : Entries} {k : Value}
    (front : ∀ e ∈ before, IsKey e.1 ∧ Writable layout other e.2)
    (here : ∀ level, ¬IsKey k ∧ keyFault k = f ∨ IsKey k ∧ Breaks (write layout other level v) f) (level : Nat) :
    Breaks (writeEntries layout other level (before ++ (k, v) :: after)) f := by
  induction before with
  | nil => exact (Finishes.piece _).breaks (entryThen_lacks (here level))
  | cons e rest ih =>
      obtain ⟨⟨key, first⟩, others⟩ := List.forall_mem_cons.mp front
      exact (Finishes.piece _).breaks (entryThen_breaks key (first.finishes level) (ih others))

/-- The first item is written apart from those behind it. -/
theorem breaks_row {before after : List Value} (front : ∀ u ∈ before, Writable layout other u)
    (here : ∀ level, Breaks (write layout other level v) f) (level : Nat) :
    Breaks (write layout other level (.list (before ++ v :: after))) f ∧
      Breaks (write layout other level (.tuple (before ++ v :: after))) f := by
  have row : Breaks (do
      put ("[" ++ layout.lineStart (level + 1))
      write layout other (level + 1) ((before ++ v :: after).headD .null)
      writeItems layout other (level + 1) (before ++ v :: after).tail
      put (layout.lineStart level ++ "]")) f := by
    refine (Finishes.piece _).breaks ?_
    cases before with
    | nil => exact (here _).early _
    | cons u rest =>
        obtain ⟨first, others⟩ := List.forall_mem_cons.mp front
        exact (first.finishes _).breaks ((breaks_items others here _).early _)
  cases before with
  | nil | cons => exact ⟨row, row⟩

theorem breaks_mapping {before after : Entries} {k : Value}
    (front : ∀ e ∈ before, IsKey e.1 ∧ Writable layout other e.2)
    (here : ∀ level, ¬IsKey k ∧ keyFault k = f ∨ IsKey k ∧ Breaks (write layout other level v) f) (level : Nat) :
    Breaks (write layout other level (.mapping (before ++ (k, v) :: after))) f := by
  cases before with
  | nil => exact (Finishes.piece _).breaks (entryThen_lacks (here _))
  | cons e rest =>
      obtain ⟨⟨key, first⟩, others⟩ := List.forall_mem_cons.mp front
      exact (Finishes.piece _).breaks (entryThen_breaks key (first.finishes _)
        ((breaks_entries others here _).early _))

/-- What stands in front of the first part that is not well is written, and with that part the writing breaks off. -/
theorem Blocked.breaks (h : Blocked layout other v f) : ∀ level, Breaks (write layout other level v) f := by
  induction h with
  | int long => exact fun level => .lacking _ (integerText_long long)
  | float strict wild =>
      intro level
      rw [write, strict, wild]
      refine ⟨[], fun s => ?_⟩
      rw [String.ofList_nil, String.append_empty]
      rfl
  | list front _ ih => exact fun level => (breaks_row front ih level).1
  | tuple front _ ih => exact fun level => (breaks_row front ih level).2
  | key front here => exact breaks_mapping front fun _ => .inl ⟨here, rfl⟩
  | entry front key _ ih => exact breaks_mapping front fun level => .inr ⟨key, ih level⟩
  | other formless unshown =>
      intro level
      rw [write_formless formless]
      exact .lacking _ unshown

/-! ### Nothing else can happen -/

/-- Either all of a row is well, or there is a first part that is not. -/
theorem all_or_first {α : Type} {good : α → Prop} {bad : α → Fault → Prop} {xs : List α}
    (each : ∀ x ∈ xs, good x ∨ ∃ f, bad x f) : (∀ x ∈ xs, good x) ∨
      ∃ before x after f, xs = before ++ x :: after ∧ (∀ u ∈ before, good u) ∧ bad x f := by
  induction xs with
  | nil => exact .inl (List.forall_mem_nil _)
  | cons x rest ih =>
      obtain ⟨first, others⟩ := List.forall_mem_cons.mp each
      rcases first with first | ⟨f, first⟩
      · rcases ih others with all | ⟨before, y, after, f, rfl, front, here⟩
        · exact .inl (List.forall_mem_cons.mpr ⟨first, all⟩)
        · exact .inr ⟨x :: before, y, after, f, rfl, List.forall_mem_cons.mpr ⟨first, front⟩, here⟩
      · exact .inr ⟨[], x, rest, f, rfl, List.forall_mem_nil _, first⟩

/-- What cannot be written is blocked: in a row, the first part that is not well decides. -/
theorem writable_or_blocked (layout : Layout) (other : Value → Except Fault String) (v : Value) :
    Writable layout other v ∨ ∃ f, Blocked layout other v f := by
  induction Value.every_true v with
  | @intro v _ _ ih =>
      have formless (none : ¬HasForm v) : Writable layout other v ∨ ∃ f, Blocked layout other v f := by
        cases shown : other v with
        | ok s => exact .inl (.other none shown)
        | error f => exact .inr ⟨f, .other none shown⟩
      cases v with
      | null => exact .inl .null
      | bool b => exact .inl (.bool b)
      | int n =>
          by_cases short : n.natAbs < digitBound
          · exact .inl (.int short)
          · exact .inr ⟨_, .int short⟩
      | float x =>
          by_cases fits : layout.finiteOnly = true → x.isFinite = true
          · exact .inl (.float fits)
          · obtain ⟨strict, wild⟩ := Classical.not_imp.mp fits
            exact .inr ⟨_, .float strict (Bool.eq_false_of_not_eq_true wild)⟩
      | text s => exact .inl (.text s)
      | list items =>
          rcases all_or_first ih with all | ⟨before, u, after, f, rfl, front, here⟩
          · exact .inl (.list all)
          · exact .inr ⟨f, .list front here⟩
      | tuple items =>
          rcases all_or_first ih with all | ⟨before, u, after, f, rfl, front, here⟩
          · exact .inl (.tuple all)
          · exact .inr ⟨f, .tuple front here⟩
      | mapping entries =>
          -- The key of an entry is looked at before its value.
          have each : ∀ e ∈ entries, (IsKey e.1 ∧ Writable layout other e.2) ∨
              ∃ f, ¬IsKey e.1 ∧ keyFault e.1 = f ∨ IsKey e.1 ∧ Blocked layout other e.2 f := by
            intro e member
            by_cases key : IsKey e.1
            · rcases (Value.forall_children_mapping.mp ih e member).2 with writable | ⟨f, blocked⟩
              · exact .inl ⟨key, writable⟩
              · exact .inr ⟨f, .inr ⟨key, blocked⟩⟩
            · exact .inr ⟨_, .inl ⟨key, rfl⟩⟩
          rcases all_or_first each with all | ⟨before, ⟨k, u⟩, after, f, rfl, front, ⟨key, rfl⟩ | ⟨key, here⟩⟩
          · exact .inl (.mapping (fun e member => (all e member).1) fun e member => (all e member).2)
          · exact .inr ⟨_, .key front key⟩
          · exact .inr ⟨f, .entry front key here⟩
      | set _ | frozenset _ | foreign _ => exact formless id

theorem Writable.written (h : Writable layout other v) : (written layout other v).1 = none := by
  obtain ⟨text, writes⟩ := h.finishes 0
  rw [Json.written, writes ""]

theorem Blocked.written (h : Blocked layout other v f) : (written layout other v).1 = some f := by
  obtain ⟨text, breaks⟩ := h.breaks 0
  rw [Json.written, breaks ""]

/-- A value is written without a fault exactly when every part of it can be written. -/
theorem written_none_iff : (written layout other v).1 = none ↔ Writable layout other v := by
  refine ⟨fun none => ?_, Writable.written⟩
  rcases writable_or_blocked layout other v with writable | ⟨f, blocked⟩
  · exact writable
  · cases none.symm.trans blocked.written

/-- The fault that stops the writing is that of the first part that cannot be written. -/
theorem written_some_iff : (written layout other v).1 = some f ↔ Blocked layout other v f := by
  refine ⟨fun some => ?_, Blocked.written⟩
  rcases writable_or_blocked layout other v with writable | ⟨f', blocked⟩
  · cases some.symm.trans writable.written
  · cases some.symm.trans blocked.written
    exact blocked

theorem text_eq (layout : Layout) (other : Value → Except Fault String) (v : Value) : text layout other v =
    match (written layout other v).1 with
    | none => .ok (written layout other v).2
    | some f => .error f := by
  rw [text]
  cases written layout other v with
  | mk fault? s => cases fault? <;> rfl

theorem Writable.text_ok (h : Writable layout other v) : Json.text layout other v =
    .ok (Json.written layout other v).2 := by
  rw [text_eq, h.written]

theorem Blocked.text_error (h : Blocked layout other v f) : Json.text layout other v = .error f := by
  rw [text_eq, h.written]

/-- A value has no text exactly when a part of it cannot be written, and gives the fault of the first such part. -/
theorem text_error_iff : text layout other v = .error f ↔ Blocked layout other v f := by
  rw [← written_some_iff, text_eq]
  cases (written layout other v).1 with
  | none => exact ⟨nofun, nofun⟩
  | some f' => rw [Except.error.injEq, Option.some_inj]

end

end BlockGraph.Json
