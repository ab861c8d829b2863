import ResolverWiring.Graphql.Parser.TypeSystem
import ResolverWiring.Proofs.Graphql.Layout

/-!
# `Proofs.Graphql.ParserRun` — runs of parsers

How the run of a composed parser splits into the runs of its parts, in both directions. From a run that
succeeds, `bind_eq_ok` gives the runs inside it. To show that a run succeeds, `Reads` says which tokens a parser
turns into which result, and what must not follow them; it holds of a composed parser when it holds of its parts.
-/

namespace ResolverWiring.Graphql

namespace Parser

variable {α β : Type} {p : Parser α} {a : α} {b : β} {ts ts' : List Token}

/-! ## Runs that succeed -/

theorem bind_eq_ok {f : α → Parser β} {rest : List Token} (h : (p >>= f) ts = .ok (b, rest)) :
    ∃ a mid, p ts = .ok (a, mid) ∧ f a mid = .ok (b, rest) := by
  change (p ts >>= fun x => f x.1 x.2) = _ at h
  cases hp : p ts with
  | error e =>
    rw [hp] at h
    cases h
  | ok x =>
    rw [hp] at h
    exact ⟨x.1, x.2, rfl, h⟩

theorem run_bind {f : α → Parser β} {mid : List Token} (h : p ts = .ok (a, mid)) :
    (p >>= f) ts = f a mid := by
  change (p ts >>= fun x => f x.1 x.2) = _
  rw [h]
  rfl

theorem run_get {f : List Token → Parser β} : (get >>= f) ts = f ts ts := rfl

theorem run_peek {f : Token → Parser β} : (peek >>= f) ts = f (front ts) ts := rfl

/-- The name that is parsed is the token in front. -/
theorem front_of_parseName {rest : List Token} {name : String}
    (h : parseName ts = .ok (name, rest)) : front ts = .name name := by
  obtain ⟨t, mid, hpeek, h⟩ := bind_eq_ok h
  cases hpeek
  generalize front ts = t at h
  cases t with
  | name text =>
    obtain ⟨_, _, _, h⟩ := bind_eq_ok h
    cases h
    rfl
  | _ => cases h

theorem parseText_eq_ok {text : String} :
    parseText p text = .ok a ↔ runOn p (tokens text.toList) = .ok a := by
  unfold parseText tokens
  dsimp only
  cases runOn p ((lex text.toList).map (·.token)) with
  | ok a' => simp
  | error failure => simp

theorem parseText_of_tokens {text : String} (htokens : tokens text.toList = ts) (hrun : runOn p ts = .ok a) :
    parseText p text = .ok a :=
  parseText_eq_ok.mpr (htokens.symm ▸ hrun)

/-- A text that is given by its characters is parsed without decoding it. -/
theorem parseText_ofList (p : Parser α) (cs : List Char) :
    parseText p (String.ofList cs)
      = (runOn p ((lex cs).map (·.token))).mapError (locate cs (lex cs)) := by
  unfold parseText
  rw [String.toList_ofList]
  dsimp only
  cases runOn p ((lex cs).map (·.token)) with
  | ok a => rfl
  | error failure => rfl

theorem runOn_eq_ok : runOn p ts = .ok a ↔
    (∀ cause r, ts ≠ .invalid cause :: r) ∧ ∃ rest, p ts = .ok (a, rest) := by
  unfold runOn resume
  split
  · rename_i cause r
    constructor
    · intro h
      cases h
    · intro h
      exact absurd rfl (h.1 cause r)
  · rename_i hvalid
    constructor
    · intro h
      refine ⟨hvalid, ?_⟩
      cases hp : p ts with
      | error e =>
        simp only [bind, Except.bind, hp] at h
        cases h
      | ok x =>
        simp only [bind, Except.bind, hp] at h
        cases h
        exact ⟨x.2, rfl⟩
    · rintro ⟨-, rest, hp⟩
      simp only [bind, Except.bind, hp]
      rfl

/-! ## Tokens that a parser turns into a result -/

/-- Whether no token of a list stands for a lexical error. -/
def Sound (ts : List Token) : Prop := ∀ t ∈ ts, ∀ cause, t ≠ .invalid cause

theorem Sound.of_append (h : Sound (ts ++ ts')) : Sound ts' :=
  fun t ht => h t (List.mem_append_right ts ht)

/-- Whether a parser turns the tokens `ts` into `a`, and leaves what follows them, when the first token
behind them is as asked for. -/
def Reads (p : Parser α) (ts : List Token) (a : α) (follow : Token → Prop) : Prop :=
  ∀ ⦃rest⦄, Sound (ts ++ rest) → follow (front rest) → p (ts ++ rest) = .ok (a, rest)

/-- Whether a list has a first token, and this is as asked for. -/
def StartsWith (ts : List Token) (follow : Token → Prop) : Prop :=
  ∃ t others, ts = t :: others ∧ follow t

variable {follow follow' : Token → Prop}

theorem StartsWith.front (h : StartsWith ts follow) (rest : List Token) :
    follow (Parser.front (ts ++ rest)) := by
  obtain ⟨t, others, rfl, ht⟩ := h
  exact ht

theorem StartsWith.append (h : StartsWith ts follow) (ts' : List Token) :
    StartsWith (ts ++ ts') follow := by
  obtain ⟨t, others, rfl, ht⟩ := h
  exact ⟨t, others ++ ts', rfl, ht⟩

theorem StartsWith.mono (h : StartsWith ts follow) (himp : ∀ t, follow t → follow' t) :
    StartsWith ts follow' := by
  obtain ⟨t, others, rfl, ht⟩ := h
  exact ⟨t, others, rfl, himp t ht⟩

theorem StartsWith.ne_nil (h : StartsWith ts follow) : ts ≠ [] := by
  obtain ⟨t, others, rfl, -⟩ := h
  exact List.cons_ne_nil t others

/-- The first token behind tokens that may be missing. -/
theorem front_append {rest : List Token} (h : ts = [] ∨ StartsWith ts follow)
    (hrest : follow (front rest)) : follow (front (ts ++ rest)) := by
  rcases h with rfl | h
  · exact hrest
  · exact h.front rest

namespace Reads

theorem pure (a : α) : Reads (pure a) [] a follow := fun _ _ _ => rfl

theorem mono (h : Reads p ts a follow) (himp : ∀ t, follow' t → follow t) : Reads p ts a follow' :=
  fun _ hsound hfollow => h hsound (himp _ hfollow)

theorem bind {f : α → Parser β} (hp : Reads p ts a follow) (hf : Reads (f a) ts' b follow')
    (hfollow : ∀ rest, follow' (front rest) → follow (front (ts' ++ rest))) :
    Reads (p >>= f) (ts ++ ts') b follow' := by
  intro rest hsound hrest
  rw [List.append_assoc] at hsound ⊢
  rw [run_bind (hp hsound (hfollow rest hrest)), hf hsound.of_append hrest]

/-- Goes on behind a part that may be followed by anything. -/
theorem seq {f : α → Parser β} (hp : Reads p ts a fun _ => True) (hf : Reads (f a) ts' b follow') :
    Reads (p >>= f) (ts ++ ts') b follow' :=
  hp.bind hf fun _ _ => trivial

/-- Ends with a value that is computed from the last result. -/
theorem result {f : α → β} (hp : Reads p ts a follow) :
    Reads (p >>= fun a => Pure.pure (f a)) ts (f a) follow := by
  have h : Reads (p >>= fun a => Pure.pure (f a)) (ts ++ []) (f a) follow :=
    hp.bind (pure (f a)) fun _ hfollow => hfollow
  rwa [List.append_nil] at h

theorem map {f : α → β} (hp : Reads p ts a follow) : Reads (f <$> p) ts (f a) follow := by
  rw [map_eq_pure_bind]
  exact hp.result

/-! ### Single tokens -/

/-- Looks at the first of the tokens that are read. -/
theorem peek {t : Token} {f : Token → Parser β} (h : Reads (f t) (t :: ts) b follow) :
    Reads (peek >>= f) (t :: ts) b follow := h

/-- Takes nothing if another token than the one asked for follows. -/
theorem peek_other {t : Token} {q : Parser β} :
    Reads (do if (← Parser.peek) = t then q else return b) [] b (· ≠ t) := by
  intro rest _ hfollow
  show (if front rest = t then q else Pure.pure b : Parser β) rest = _
  rw [if_neg hfollow]
  rfl

/-- Goes on the first way if the token asked for is in front. -/
theorem peek_same {t : Token} {q r : Token → Parser β} (h : Reads (q t) (t :: ts) b follow) :
    Reads (Parser.peek >>= fun t' => if t' = t then q t' else r t') (t :: ts) b follow := by
  refine peek ?_
  rw [if_pos rfl]
  exact h

/-- Goes on the other way if another token than the one asked for is in front. -/
theorem peek_else {t : Token} {q r : Token → Parser β} {t' : Token} (hne : t' ≠ t)
    (h : Reads (r t') (t' :: ts) b follow) :
    Reads (Parser.peek >>= fun t' => if t' = t then q t' else r t') (t' :: ts) b follow := by
  refine peek ?_
  rw [if_neg hne]
  exact h

theorem advance {t : Token} : Reads advance [t] () follow := by
  intro rest hsound _
  cases rest with
  | nil => rfl
  | cons t' rest =>
    have ht' : ∀ cause, t' ≠ .invalid cause :=
      hsound t' (List.mem_cons_of_mem _ List.mem_cons_self)
    cases t' with
    | invalid cause => exact absurd rfl (ht' cause)
    | _ => rfl

theorem expect (mark : Punctuator) : Reads (expect mark) [.punctuator mark] () follow :=
  peek_same advance

theorem takeMark (mark : Punctuator) : Reads (takeMark mark) [.punctuator mark] true follow :=
  peek_same (advance.seq (pure true))

theorem takeMark_none (mark : Punctuator) :
    Reads (Parser.takeMark mark) [] false (· ≠ .punctuator mark) := peek_other

theorem expectKeyword (word : String) : Reads (expectKeyword word) [.name word] () follow :=
  peek_same advance

theorem takeKeyword (word : String) : Reads (takeKeyword word) [.name word] true follow :=
  peek_same (advance.seq (pure true))

theorem takeKeyword_none (word : String) :
    Reads (Parser.takeKeyword word) [] false (· ≠ .name word) := peek_other

theorem parseName (name : String) : Reads parseName [.name name] name follow :=
  peek (advance.seq (pure name))

/-! ### Repetition -/

theorem bounded {p : Nat → Parser α}
    (h : ∀ bound, ts.length ≤ bound → Reads (p (bound + 1)) ts a follow) :
    Reads (bounded p) ts a follow := by
  intro rest hsound hfollow
  have hbound : ts.length ≤ (ts ++ rest).length := by
    rw [List.length_append]
    exact Nat.le_add_right _ _
  exact h _ hbound hsound hfollow

variable {item : Parser α} {spell : α → List Token} {items : List α}

theorem length_le_length_flatMap (hstart : ∀ a ∈ items, StartsWith (spell a) follow) :
    items.length ≤ (items.flatMap spell).length := by
  induction items with
  | nil => exact Nat.le_refl 0
  | cons a items ih =>
    obtain ⟨ha, hitems⟩ := List.forall_mem_cons.mp hstart
    have := List.length_pos_iff.mpr ha.ne_nil
    have := ih hitems
    rw [List.flatMap_cons, List.length_append, List.length_cons]
    omega

/-- The first token of items with a mark behind them. -/
theorem startsWith_items {close : Punctuator} (hstart : ∀ a ∈ items, StartsWith (spell a) follow)
    (hclose : follow (.punctuator close)) :
    StartsWith (items.flatMap spell ++ [.punctuator close]) follow := by
  cases items with
  | nil => exact ⟨_, _, rfl, hclose⟩
  | cons a items =>
    rw [List.flatMap_cons, List.append_assoc]
    exact (hstart a List.mem_cons_self).append _

/-- Items up to a closing mark, when each may be followed by the next and by the mark. -/
theorem itemsUntil {close : Punctuator} (hitem : ∀ a ∈ items, Reads item (spell a) a follow)
    (hstart : ∀ a ∈ items, StartsWith (spell a) fun t => follow t ∧ t ≠ .punctuator close)
    (hclose : follow (.punctuator close)) {bound : Nat} (hbound : items.length ≤ bound) :
    Reads (itemsUntil close item (bound + 1)) (items.flatMap spell ++ [.punctuator close]) items
      follow' := by
  induction items generalizing bound with
  | nil => exact (takeMark close).seq (pure [])
  | cons a items ih =>
    obtain ⟨bound, rfl⟩ := Nat.exists_eq_add_one_of_ne_zero (Nat.ne_zero_of_lt hbound)
    obtain ⟨ha, hitems⟩ := List.forall_mem_cons.mp hitem
    obtain ⟨hfirst, hothers⟩ := List.forall_mem_cons.mp hstart
    have hbehind := ih hitems hothers (Nat.le_of_succ_le_succ hbound)
    -- behind the first item stands the next one, or the closing mark
    have hnext := startsWith_items (fun a ha => (hothers a ha).mono fun _ h => h.1) hclose
    have hround : Reads (do
        let first ← item
        let others ← Parser.itemsUntil close item (bound + 1)
        return first :: others) (spell a ++ (items.flatMap spell ++ [.punctuator close]))
        (a :: items) follow' :=
      ha.bind hbehind.result fun rest _ => hnext.front rest
    rw [List.flatMap_cons, List.append_assoc]
    exact (takeMark_none close).bind hround fun rest _ =>
      ((hfirst.append _).mono fun _ h => h.2).front rest

/-- One item or more between two marks. -/
theorem between {opening close : Punctuator} (hitem : ∀ a ∈ items, Reads item (spell a) a follow)
    (hstart : ∀ a ∈ items, StartsWith (spell a) fun t => follow t ∧ t ≠ .punctuator close)
    (hclose : follow (.punctuator close)) (hne : items ≠ []) :
    Reads (between opening item close)
      (.punctuator opening :: (items.flatMap spell ++ [.punctuator close])) items follow' := by
  obtain ⟨first, others, rfl⟩ := List.exists_cons_of_ne_nil hne
  obtain ⟨hfirst, hothers⟩ := List.forall_mem_cons.mp hitem
  obtain ⟨-, hstarts⟩ := List.forall_mem_cons.mp hstart
  have hbehind : Reads (Parser.bounded (Parser.itemsUntil close item))
      (others.flatMap spell ++ [.punctuator close]) others follow' := by
    -- an item has at least one token, so the bound is not reached
    refine bounded fun bound hbound => itemsUntil hothers hstarts hclose ?_
    have := length_le_length_flatMap hstarts
    rw [List.length_append] at hbound
    omega
  have hnext := startsWith_items (fun a ha => (hstarts a ha).mono fun _ h => h.1) hclose
  rw [List.flatMap_cons, List.append_assoc]
  exact (expect opening).seq (hfirst.bind hbehind.result fun rest _ => hnext.front rest)

/-- Any number of items between two marks. -/
theorem anyBetween {opening close : Punctuator} (hitem : ∀ a ∈ items, Reads item (spell a) a follow)
    (hstart : ∀ a ∈ items, StartsWith (spell a) fun t => follow t ∧ t ≠ .punctuator close)
    (hclose : follow (.punctuator close)) :
    Reads (anyBetween opening item close)
      (.punctuator opening :: (items.flatMap spell ++ [.punctuator close])) items follow' := by
  have hbehind : Reads (Parser.bounded (Parser.itemsUntil close item))
      (items.flatMap spell ++ [.punctuator close]) items follow' := by
    refine bounded fun bound hbound => itemsUntil hitem hstart hclose ?_
    have := length_le_length_flatMap hstart
    rw [List.length_append] at hbound
    omega
  exact (expect opening).seq hbehind

/-- Items between two marks, or nothing if the opening mark does not follow. -/
theorem optionalBetween {opening close : Punctuator}
    (hitem : ∀ a ∈ items, Reads item (spell a) a follow)
    (hstart : ∀ a ∈ items, StartsWith (spell a) fun t => follow t ∧ t ≠ .punctuator close)
    (hclose : follow (.punctuator close)) :
    Reads (optionalBetween opening item close) (Layout.enclosed opening close (items.map spell))
      items (fun t => items = [] → t ≠ .punctuator opening) := by
  cases items with
  | nil => exact peek_other.mono fun _ h => h rfl
  | cons a items =>
    have htokens : Layout.enclosed opening close ((a :: items).map spell)
        = .punctuator opening :: ((a :: items).flatMap spell ++ [.punctuator close]) := rfl
    rw [htokens]
    exact peek_same (between hitem hstart hclose (List.cons_ne_nil a items))

/-- Items, each behind a mark. -/
theorem itemsBehind {mark : Punctuator} (hitem : ∀ a ∈ items, Reads item (spell a) a fun _ => True)
    {bound : Nat} (hbound : items.length ≤ bound) :
    Reads (itemsBehind mark item (bound + 1)) (items.flatMap fun a => .punctuator mark :: spell a) items
      (· ≠ .punctuator mark) := by
  induction items generalizing bound with
  | nil => exact (takeMark_none mark).bind (pure []) fun _ h => h
  | cons a items ih =>
    obtain ⟨bound, rfl⟩ := Nat.exists_eq_add_one_of_ne_zero (Nat.ne_zero_of_lt hbound)
    obtain ⟨ha, hitems⟩ := List.forall_mem_cons.mp hitem
    exact (takeMark mark).seq (ha.seq (ih hitems (Nat.le_of_succ_le_succ hbound)).result)

/-- Items with a mark between them. -/
theorem separated {mark : Punctuator} {first : α}
    (hitem : ∀ a ∈ first :: items, Reads item (spell a) a fun _ => True)
    (hstart : StartsWith (spell first) (· ≠ .punctuator mark)) :
    Reads (separated mark item) (spell first ++ items.flatMap fun a => .punctuator mark :: spell a)
      (first :: items) (· ≠ .punctuator mark) := by
  obtain ⟨hfirst, hothers⟩ := List.forall_mem_cons.mp hitem
  have hbehind : Reads (Parser.bounded (Parser.itemsBehind mark item))
      (items.flatMap fun a => .punctuator mark :: spell a) items (· ≠ .punctuator mark) := by
    have hmarks : ∀ a ∈ items, StartsWith (.punctuator mark :: spell a) (fun _ => True) :=
      fun a _ => ⟨_, _, rfl, trivial⟩
    exact bounded fun bound hbound =>
      itemsBehind hothers (Nat.le_trans (length_le_length_flatMap hmarks) hbound)
  exact ((takeMark_none mark).map).bind (hfirst.seq hbehind.result) fun rest _ =>
    (hstart.append _).front rest

/-- Items that start with a mark, up to the first token that is another. -/
theorem itemsWhile {mark : Punctuator} (hitem : ∀ a ∈ items, Reads item (spell a) a follow)
    (hstart : ∀ a ∈ items, StartsWith (spell a) (· = .punctuator mark))
    (hmark : follow (.punctuator mark)) {bound : Nat} (hbound : items.length ≤ bound) :
    Reads (itemsWhile mark item (bound + 1)) (items.flatMap spell) items
      (fun t => t ≠ .punctuator mark ∧ follow t) := by
  induction items generalizing bound with
  | nil => exact peek_other.mono fun _ h => h.1
  | cons a items ih =>
    obtain ⟨bound, rfl⟩ := Nat.exists_eq_add_one_of_ne_zero (Nat.ne_zero_of_lt hbound)
    obtain ⟨ha, hitems⟩ := List.forall_mem_cons.mp hitem
    obtain ⟨hfirst, hothers⟩ := List.forall_mem_cons.mp hstart
    have hbehind := ih hitems hothers (Nat.le_of_succ_le_succ hbound)
    have hround : Reads (do
        let first ← item
        let others ← Parser.itemsWhile mark item (bound + 1)
        return first :: others) (spell a ++ items.flatMap spell) (a :: items)
        (fun t => t ≠ .punctuator mark ∧ follow t) := by
      -- what follows the first item is the mark of the next one, or what follows them all
      refine ha.bind hbehind.result fun rest hrest => front_append ?_ hrest.2
      cases items with
      | nil => exact .inl rfl
      | cons a' items =>
        rw [List.flatMap_cons]
        exact .inr (((hothers a' List.mem_cons_self).append _).mono fun t ht => ht ▸ hmark)
    obtain ⟨t, others, ht, rfl⟩ := hfirst
    rw [List.flatMap_cons]
    rw [ht] at hround ⊢
    exact peek_same hround

end Reads

/-! ## Tokens that a parser gets past -/

/-- Whether a parser goes on as `q` behind the tokens `ts`, when the first token behind them is as asked
for. -/
def LeadsTo (p : Parser α) (ts : List Token) (q : Parser α) (follow : Token → Prop) : Prop :=
  ∀ ⦃rest⦄, Sound (ts ++ rest) → follow (front rest) → p (ts ++ rest) = q rest

theorem Reads.leadsTo {f : α → Parser β} (hp : Reads p ts a follow) :
    LeadsTo (p >>= f) ts (f a) follow :=
  fun _ hsound hfollow => run_bind (hp hsound hfollow)

namespace LeadsTo

variable {q r : Parser α}

theorem mono (h : LeadsTo p ts q follow) (himp : ∀ t, follow' t → follow t) :
    LeadsTo p ts q follow' :=
  fun _ hsound hfollow => h hsound (himp _ hfollow)

theorem trans (h : LeadsTo p ts q follow) (h' : LeadsTo q ts' r follow')
    (hfollow : ∀ rest, follow' (front rest) → follow (front (ts' ++ rest))) :
    LeadsTo p (ts ++ ts') r follow' := by
  intro rest hsound hrest
  rw [List.append_assoc] at hsound ⊢
  rw [h hsound (hfollow rest hrest), h' hsound.of_append hrest]

theorem reads (h : LeadsTo p ts q follow) (h' : Reads q ts' a follow')
    (hfollow : ∀ rest, follow' (front rest) → follow (front (ts' ++ rest))) :
    Reads p (ts ++ ts') a follow' := by
  intro rest hsound hrest
  rw [List.append_assoc] at hsound ⊢
  rw [h hsound (hfollow rest hrest), h' hsound.of_append hrest]

theorem bind (h : LeadsTo p ts q follow) (f : α → Parser β) :
    LeadsTo (p >>= f) ts (q >>= f) follow := by
  intro rest hsound hrest
  change (p (ts ++ rest) >>= fun x => f x.1 x.2) = (q rest >>= fun x => f x.1 x.2)
  rw [h hsound hrest]

end LeadsTo

end Parser

end ResolverWiring.Graphql
