/-
Programs that talk to a keyed store through requests, and what can be said about one of them while others use the same
store.

A `Prog` sends a request, goes on with the answer, and ends with a value or stops early. A `Server` answers a request from
the value at the request's key and changes only that value; a request that changes nothing is a read. `eval` runs a program
alone; between two of its requests other programs may be served, so results about concurrent runs go through the program
itself:

- `eval_bind_ok`, `eval_bind_error`, `eval_handle_ok`, `eval_handle_error`: the pieces of a program.
- `Uses`: every request a program can send satisfies a condition.
- `eval_congr`: a program sees the keys it uses and no other.
- `eval_preserves`, `eval_frame`: it preserves what its requests preserve; it changes the keys of its writes and no other.
- `eval_forEach_local`: a loop over items with keys of their own.
- `silent_bind_iff`, `silent_forEach_iff`: a program that ends and only reads, piece by piece.
- `storeAfter_alone`, `eachResult_alone`: programs in a row, no one writing what another one reads.
- `Eventually`: whatever the answers, some request satisfies the condition.
-/
import Mathlib.Tactic
import Mathlib.Order.CompletePartialOrder

namespace DrasiPlatform.Programs

/-- a program with requests `Q` and answers `A` -/
inductive Prog (Q A E α : Type) where
  | ret (a : α)
  | stop (e : E)
  | call (q : Q) (k : A → Prog Q A E α)

namespace Prog

variable {Q A E α β ι : Type}

def bind : Prog Q A E α → (α → Prog Q A E β) → Prog Q A E β
  | ret a, f => f a
  | stop e, _ => stop e
  | call q k, f => call q fun a => (k a).bind f

instance : Monad (Prog Q A E) where
  pure := ret
  bind := bind

/-- send a request -/
def ask (q : Q) : Prog Q A E A := call q ret

/-- go on with `h` when `p` stops -/
def handle (p : Prog Q A E α) (h : E → Prog Q A E α) : Prog Q A E α :=
  match p with
  | ret a => ret a
  | stop e => h e
  | call q k => call q fun a => (k a).handle h

/-- one after the other; the first that stops is the last -/
def forEach (f : ι → Prog Q A E Unit) : List ι → Prog Q A E Unit
  | [] => ret ()
  | i :: l => (f i).bind fun _ => forEach f l

@[simp] theorem pure_eq (a : α) : (pure a : Prog Q A E α) = ret a := rfl

@[simp] theorem bind_eq (p : Prog Q A E α) (f : α → Prog Q A E β) : p >>= f = p.bind f := rfl

@[simp] theorem ret_bind (a : α) (f : α → Prog Q A E β) : (ret a).bind f = f a := rfl

theorem bind_ret (p : Prog Q A E α) : p.bind ret = p := by
  induction p with
  | ret a => rfl
  | stop e => rfl
  | call q k ih => exact congrArg (call q) (funext ih)

theorem bind_assoc {γ : Type} (p : Prog Q A E α) (f : α → Prog Q A E β) (g : β → Prog Q A E γ) :
    (p.bind f).bind g = p.bind fun a => (f a).bind g := by
  induction p with
  | ret a => rfl
  | stop e => rfl
  | call q k ih => exact congrArg (call q) (funext ih)

theorem forEach_map {κ : Type} (f : κ → Prog Q A E Unit) (g : ι → κ) (l : List ι) :
    forEach f (l.map g) = forEach (fun i => f (g i)) l := by
  induction l with
  | nil => rfl
  | cons i l ih => rw [List.map_cons, forEach, forEach, ih]

theorem forEach_append (f : ι → Prog Q A E Unit) (l l' : List ι) :
    forEach f (l ++ l') = (forEach f l).bind fun _ => forEach f l' := by
  induction l with
  | nil => rfl
  | cons i l ih => rw [List.cons_append, forEach, forEach, bind_assoc, ih]

theorem forEach_singleton (f : ι → Prog Q A E Unit) (i : ι) : forEach f [i] = f i := bind_ret (f i)

@[simp] theorem ask_bind (q : Q) (f : A → Prog Q A E β) : (ask q).bind f = call q f := rfl

/-! ## What a program can ask -/

/-- every request the program can send satisfies `P` -/
def Uses (P : Q → Prop) : Prog Q A E α → Prop
  | ret _ => True
  | stop _ => True
  | call q k => P q ∧ ∀ a, (k a).Uses P

theorem Uses.mono {P P' : Q → Prop} (hP : ∀ q, P q → P' q) {p : Prog Q A E α} (h : p.Uses P) : p.Uses P' := by
  induction p with
  | ret a => trivial
  | stop e => trivial
  | call q k ih => exact ⟨hP q h.1, fun a => ih a (h.2 a)⟩

theorem uses_bind {P : Q → Prop} {p : Prog Q A E α} {f : α → Prog Q A E β} (hp : p.Uses P) (hf : ∀ a, (f a).Uses P) :
    (p.bind f).Uses P := by
  induction p with
  | ret a => exact hf a
  | stop e => trivial
  | call q k ih => exact ⟨hp.1, fun a => ih a (hp.2 a)⟩

theorem uses_handle {P : Q → Prop} {p : Prog Q A E α} {h : E → Prog Q A E α} (hp : p.Uses P) (hh : ∀ e, (h e).Uses P) :
    (p.handle h).Uses P := by
  induction p with
  | ret a => trivial
  | stop e => exact hh e
  | call q k ih => exact ⟨hp.1, fun a => ih a (hp.2 a)⟩

theorem uses_forEach {P : Q → Prop} {f : ι → Prog Q A E Unit} {l : List ι} (h : ∀ i ∈ l, (f i).Uses P) :
    (forEach f l).Uses P := by
  induction l with
  | nil => trivial
  | cons i l ih =>
    refine uses_bind (h i List.mem_cons_self) ?_
    intro _
    exact ih fun j hj => h j (List.mem_cons_of_mem i hj)

end Prog

/-! ## Servers -/

/-- answers and effects of requests, each on the value at one key -/
structure Server (K V Q A : Type) where
  key : Q → K
  answer : Q → Option V → A
  effect : Q → Option V → Option V

/-- the end of a program: its result, the store it leaves and the requests it has sent -/
structure Outcome (K V Q E α : Type) where
  result : Except E α
  store : K → Option V
  requests : List Q

namespace Server

variable {K V Q A E α β ι : Type} [DecidableEq K] (srv : Server K V Q A)

/-- the request leaves every store as it is -/
def IsRead (q : Q) : Prop := ∀ v, srv.effect q v = v

def serve (q : Q) (s : K → Option V) : K → Option V := Function.update s (srv.key q) (srv.effect q (s (srv.key q)))

def answered (q : Q) (s : K → Option V) : A := srv.answer q (s (srv.key q))

def eval : Prog Q A E α → (K → Option V) → Outcome K V Q E α
  | .ret a, s => ⟨.ok a, s, []⟩
  | .stop e, s => ⟨.error e, s, []⟩
  | .call q k, s =>
    let o := eval (k (srv.answered q s)) (srv.serve q s)
    { o with requests := q :: o.requests }

variable {srv}

theorem serve_of_isRead {q : Q} (h : srv.IsRead q) (s : K → Option V) : srv.serve q s = s := by
  rw [serve, h, Function.update_eq_self]

theorem serve_of_ne {q : Q} {k : K} (h : k ≠ srv.key q) (s : K → Option V) : srv.serve q s k = s k :=
  Function.update_of_ne h _ s

theorem eval_bind_ok {p : Prog Q A E α} {f : α → Prog Q A E β} {s : K → Option V} {a : α}
    (h : (srv.eval p s).result = .ok a) :
    srv.eval (p.bind f) s =
      ⟨(srv.eval (f a) (srv.eval p s).store).result, (srv.eval (f a) (srv.eval p s).store).store,
        (srv.eval p s).requests ++ (srv.eval (f a) (srv.eval p s).store).requests⟩ := by
  induction p generalizing s with
  | ret a' =>
    cases h
    rfl
  | stop e => cases h
  | call q k ih =>
    have hih := ih _ h
    rw [Prog.bind, eval, hih]
    rfl

theorem eval_bind_error {p : Prog Q A E α} {f : α → Prog Q A E β} {s : K → Option V} {e : E}
    (h : (srv.eval p s).result = .error e) :
    srv.eval (p.bind f) s = ⟨.error e, (srv.eval p s).store, (srv.eval p s).requests⟩ := by
  induction p generalizing s with
  | ret a => cases h
  | stop e' =>
    cases h
    rfl
  | call q k ih =>
    have hih := ih _ h
    rw [Prog.bind, eval, hih]
    rfl

theorem eval_handle_ok {p : Prog Q A E α} {h : E → Prog Q A E α} {s : K → Option V} {a : α}
    (hp : (srv.eval p s).result = .ok a) : srv.eval (p.handle h) s = srv.eval p s := by
  induction p generalizing s with
  | ret a' => rfl
  | stop e => cases hp
  | call q k ih =>
    rw [Prog.handle, eval, ih _ hp]
    rfl

theorem eval_handle_error {p : Prog Q A E α} {h : E → Prog Q A E α} {s : K → Option V} {e : E}
    (hp : (srv.eval p s).result = .error e) :
    srv.eval (p.handle h) s =
      ⟨(srv.eval (h e) (srv.eval p s).store).result, (srv.eval (h e) (srv.eval p s).store).store,
        (srv.eval p s).requests ++ (srv.eval (h e) (srv.eval p s).store).requests⟩ := by
  induction p generalizing s with
  | ret a => cases hp
  | stop e' =>
    cases hp
    rfl
  | call q k ih =>
    rw [Prog.handle, eval, ih _ hp]
    rfl

/-! ## Locality -/

/-- **A program sees the keys it uses.** On stores that agree there it sends the same requests, ends with the same result
and leaves stores that agree there. -/
theorem eval_congr {R : Set K} {p : Prog Q A E α} (hp : p.Uses fun q => srv.key q ∈ R) {s t : K → Option V}
    (h : ∀ k ∈ R, s k = t k) :
    (srv.eval p s).result = (srv.eval p t).result ∧ (srv.eval p s).requests = (srv.eval p t).requests ∧
      ∀ k ∈ R, (srv.eval p s).store k = (srv.eval p t).store k := by
  induction p generalizing s t with
  | ret a => exact ⟨rfl, rfl, h⟩
  | stop e => exact ⟨rfl, rfl, h⟩
  | call q k ih =>
    have hq := h _ hp.1
    have hans : srv.answered q s = srv.answered q t := by rw [answered, answered, hq]
    have hserve : ∀ k ∈ R, srv.serve q s k = srv.serve q t k := by
      intro k hk
      simp only [serve, Function.update_apply, hq]
      split
      · rfl
      · exact h k hk
    obtain ⟨hres, hreq, hstore⟩ := ih (srv.answered q t) (hp.2 _) hserve
    simp only [eval, hans]
    exact ⟨hres, by rw [hreq], hstore⟩

/-- **What every request preserves, the program preserves.** -/
theorem eval_preserves {I : (K → Option V) → Prop} {p : Prog Q A E α}
    (hp : p.Uses fun q => ∀ s, I s → I (srv.serve q s)) {s : K → Option V} (hs : I s) : I (srv.eval p s).store := by
  induction p generalizing s with
  | ret a => exact hs
  | stop e => exact hs
  | call q k ih => exact ih _ (hp.2 _) (hp.1 s hs)

theorem serve_frame {W : Set K} {q : Q} (hq : srv.IsRead q ∨ srv.key q ∈ W) {k : K} (hk : k ∉ W) (s : K → Option V) :
    srv.serve q s k = s k := by
  rcases hq with hr | hw
  · rw [serve_of_isRead hr]
  · refine serve_of_ne ?_ s
    rintro rfl
    exact hk hw

/-- **A program changes the keys of its writes** and no other. -/
theorem eval_frame {W : Set K} {p : Prog Q A E α} (hp : p.Uses fun q => srv.IsRead q ∨ srv.key q ∈ W) {s : K → Option V}
    {k : K} (hk : k ∉ W) : (srv.eval p s).store k = s k := by
  refine eval_preserves (I := fun t => t k = s k) (hp.mono ?_) rfl
  intro q hq t ht
  rw [serve_frame hq hk, ht]

/-! ## Loops -/

/-- **Items with keys of their own.** When every item ends and changes only the value at its key, in a way that depends on
this value, the loop ends and each key has what its item makes of it. `Good` is what the items may rely on. -/
theorem eval_forEach_local {f : ι → Prog Q A E Unit} {l : List ι} (key : ι → K) (next : ι → Option V → Option V)
    (Good : (K → Option V) → Prop) (hn : (l.map key).Nodup)
    (h : ∀ i ∈ l, ∀ s, Good s → (srv.eval (f i) s).result = .ok () ∧
      (srv.eval (f i) s).store = Function.update s (key i) (next i (s (key i))))
    (hgood : ∀ i ∈ l, ∀ s v, Good s → Good (Function.update s (key i) v)) {s : K → Option V} (hs : Good s) :
    (srv.eval (Prog.forEach f l) s).result = .ok () ∧
      (∀ i ∈ l, (srv.eval (Prog.forEach f l) s).store (key i) = next i (s (key i))) ∧
      ∀ k ∉ l.map key, (srv.eval (Prog.forEach f l) s).store k = s k := by
  induction l generalizing s with
  | nil => exact ⟨rfl, by simp, fun _ _ => rfl⟩
  | cons i l ih =>
    obtain ⟨hi, hn⟩ := List.nodup_cons.1 hn
    obtain ⟨hres, hstore⟩ := h i List.mem_cons_self s hs
    have hs' := hgood i List.mem_cons_self s (next i (s (key i))) hs
    obtain ⟨hok, hkeys, hrest⟩ := ih hn (fun j hj => h j (List.mem_cons_of_mem i hj))
      (fun j hj => hgood j (List.mem_cons_of_mem i hj)) hs'
    rw [Prog.forEach, eval_bind_ok hres, hstore]
    refine ⟨hok, ?_, ?_⟩
    · intro j hj
      rcases List.mem_cons.1 hj with rfl | hj
      · rw [hrest _ hi, Function.update_self]
      · rw [hkeys j hj, Function.update_of_ne]
        intro he
        exact hi (he ▸ List.mem_map_of_mem hj)
    · intro k hk
      rw [List.map_cons, List.mem_cons, not_or] at hk
      rw [hrest k hk.2, Function.update_of_ne hk.1]

variable (srv) in
/-- the program ends with `a` and has sent only requests that satisfy `P` -/
def Silent (P : Q → Prop) (p : Prog Q A E α) (s : K → Option V) (a : α) : Prop :=
  (srv.eval p s).result = .ok a ∧ ∀ q ∈ (srv.eval p s).requests, P q

theorem store_of_reads {p : Prog Q A E α} {s : K → Option V} (h : ∀ q ∈ (srv.eval p s).requests, srv.IsRead q) :
    (srv.eval p s).store = s := by
  induction p generalizing s with
  | ret a => rfl
  | stop e => rfl
  | call q k ih =>
    have hq : srv.serve q s = s := serve_of_isRead (h q List.mem_cons_self) s
    have hrest := ih (srv.answered q s) (s := srv.serve q s) fun q' hq' => h q' (List.mem_cons_of_mem q hq')
    exact hrest.trans hq

/-- a silent program of reads, piece by piece -/
theorem silent_bind_iff {P : Q → Prop} (hP : ∀ q, P q → srv.IsRead q) {p : Prog Q A E α} {f : α → Prog Q A E β}
    {s : K → Option V} {b : β} :
    srv.Silent P (p.bind f) s b ↔ ∃ a, srv.Silent P p s a ∧ srv.Silent P (f a) s b := by
  unfold Silent
  rcases hp : (srv.eval p s).result with e | a
  · rw [eval_bind_error hp]
    simp
  · rw [eval_bind_ok hp]
    simp only [List.mem_append, Except.ok.injEq]
    constructor
    · rintro ⟨hres, hreq⟩
      have hreads : ∀ q ∈ (srv.eval p s).requests, P q := fun q hq => hreq q (.inl hq)
      have hstore : (srv.eval p s).store = s := store_of_reads fun q hq => hP q (hreads q hq)
      rw [hstore] at hres hreq
      exact ⟨a, ⟨rfl, hreads⟩, hres, fun q hq => hreq q (.inr hq)⟩
    · rintro ⟨a, ⟨rfl, hreads⟩, hres, hreq⟩
      have hstore : (srv.eval p s).store = s := store_of_reads fun q hq => hP q (hreads q hq)
      rw [hstore]
      exact ⟨hres, fun q hq => hq.elim (hreads q) (hreq q)⟩

/-- after a silent piece that ends with `a` -/
theorem Silent.bind_iff {P : Q → Prop} (hP : ∀ q, P q → srv.IsRead q) {p : Prog Q A E α} {f : α → Prog Q A E β}
    {s : K → Option V} {a : α} (h : srv.Silent P p s a) {b : β} : srv.Silent P (p.bind f) s b ↔ srv.Silent P (f a) s b := by
  rw [silent_bind_iff hP]
  constructor
  · rintro ⟨a', h', hf⟩
    have haa : a' = a := Except.ok.inj (h'.1.symm.trans h.1)
    exact haa ▸ hf
  · intro hf
    exact ⟨a, h, hf⟩

theorem silent_forEach_iff {P : Q → Prop} (hP : ∀ q, P q → srv.IsRead q) {f : ι → Prog Q A E Unit} {l : List ι}
    {s : K → Option V} : srv.Silent P (Prog.forEach f l) s () ↔ ∀ i ∈ l, srv.Silent P (f i) s () := by
  induction l with
  | nil => simp [Silent, Prog.forEach, eval]
  | cons i l ih =>
    rw [Prog.forEach, silent_bind_iff hP, List.forall_mem_cons, ← ih]
    constructor
    · rintro ⟨⟨⟩, h⟩
      exact h
    · intro h
      exact ⟨(), h⟩

/-! ## Programs with stores of their own -/

variable (srv) in
/-- the store after the programs, one after the other, whatever their results -/
def storeAfter (ps : List (Prog Q A E α)) (s : K → Option V) : K → Option V :=
  ps.foldl (fun s p => (srv.eval p s).store) s

variable (srv) in
/-- every result on the way satisfies `T` -/
def EachResult (T : Except E α → Prop) : List (Prog Q A E α) → (K → Option V) → Prop
  | [], _ => True
  | p :: ps, s => T (srv.eval p s).result ∧ EachResult T ps (srv.eval p s).store

variable (srv) in
/-- every program reads in its `R` and writes in its `W` -/
def Within (R W : ι → Set K) (ps : List (ι × Prog Q A E α)) : Prop :=
  ∀ x ∈ ps, x.2.Uses fun q => srv.key q ∈ R x.1 ∧ (srv.IsRead q ∨ srv.key q ∈ W x.1)

variable {R W : ι → Set K} {ps : List (ι × Prog Q A E α)}

theorem Within.agree (h : srv.Within R W ps) (hdisj : ∀ i j, i ≠ j → Disjoint (W i) (R j)) {x : ι × Prog Q A E α}
    (hx : x ∈ ps) {j : ι} (hj : x.1 ≠ j) (s : K → Option V) : ∀ k ∈ R j, (srv.eval x.2 s).store k = s k := by
  intro k hk
  refine eval_frame (W := W x.1) ((h x hx).mono fun _ hq => hq.2) ?_
  intro hw
  exact Set.disjoint_left.1 (hdisj x.1 j hj) hw hk

theorem Within.eval_eq (h : srv.Within R W ps) {x : ι × Prog Q A E α} (hx : x ∈ ps) {s t : K → Option V}
    (hst : ∀ k ∈ R x.1, s k = t k) :
    (srv.eval x.2 s).result = (srv.eval x.2 t).result ∧ (srv.eval x.2 s).requests = (srv.eval x.2 t).requests ∧
      ∀ k ∈ R x.1, (srv.eval x.2 s).store k = (srv.eval x.2 t).store k :=
  eval_congr ((h x hx).mono fun _ hq => hq.1) hst

/-- **Each as if alone.** When no program writes what another one reads, each leaves what it would leave alone, -/
theorem storeAfter_alone (h : srv.Within R W ps) (hdisj : ∀ i j, i ≠ j → Disjoint (W i) (R j)) (hn : (ps.map Prod.fst).Nodup)
    (s : K → Option V) : ∀ x ∈ ps, ∀ k ∈ R x.1, srv.storeAfter (ps.map Prod.snd) s k = (srv.eval x.2 s).store k := by
  induction ps generalizing s with
  | nil => simp
  | cons x₀ ps ih =>
    obtain ⟨hx₀, hn⟩ := List.nodup_cons.1 hn
    have hrest : srv.Within R W ps := fun x hx => h x (List.mem_cons_of_mem x₀ hx)
    have hne : ∀ x ∈ ps, x₀.1 ≠ x.1 := fun x hx he => hx₀ (he ▸ List.mem_map_of_mem hx)
    intro x hx k hk
    rw [List.map_cons, storeAfter, List.foldl_cons]
    rcases List.mem_cons.1 hx with rfl | hx
    · -- the later programs leave it alone
      have hlater : ∀ (l : List (ι × Prog Q A E α)) (t : K → Option V), (∀ y ∈ l, y ∈ ps) →
          srv.storeAfter (l.map Prod.snd) t k = t k := by
        intro l
        induction l with
        | nil => exact fun _ _ => rfl
        | cons y l ihl =>
          intro t hl
          have hy := hl y List.mem_cons_self
          rw [List.map_cons, storeAfter, List.foldl_cons]
          refine (ihl _ fun z hz => hl z (List.mem_cons_of_mem y hz)).trans ?_
          exact hrest.agree hdisj hy (hne y hy).symm t k hk
      exact hlater ps _ fun y hy => hy
    · refine (ih hrest hn _ x hx k hk).trans ?_
      exact (hrest.eval_eq hx (h.agree hdisj List.mem_cons_self (hne x hx) s)).2.2 k hk

/-- and ends as it would end alone -/
theorem eachResult_alone (h : srv.Within R W ps) (hdisj : ∀ i j, i ≠ j → Disjoint (W i) (R j)) (hn : (ps.map Prod.fst).Nodup)
    (T : Except E α → Prop) (s : K → Option V) :
    srv.EachResult T (ps.map Prod.snd) s ↔ ∀ x ∈ ps, T (srv.eval x.2 s).result := by
  induction ps generalizing s with
  | nil => simp [EachResult]
  | cons x₀ ps ih =>
    obtain ⟨hx₀, hn⟩ := List.nodup_cons.1 hn
    have hrest : srv.Within R W ps := fun x hx => h x (List.mem_cons_of_mem x₀ hx)
    rw [List.map_cons, EachResult, ih hrest hn, List.forall_mem_cons]
    refine and_congr_right fun _ => forall_congr' fun x => forall_congr' fun hx => ?_
    have hne : x₀.1 ≠ x.1 := fun he => hx₀ (he ▸ List.mem_map_of_mem hx)
    rw [(hrest.eval_eq hx (h.agree hdisj List.mem_cons_self hne s)).1]

/-! ## What comes whatever the answers -/

variable (srv) in
/-- whatever the answers of the server, the program sends a request that satisfies `P` before it ends -/
def Eventually (P : Q → Prop) : Prog Q A E α → Prop
  | .ret _ => False
  | .stop _ => False
  | .call q k => P q ∨ ∀ v, Eventually P (k (srv.answer q v))

omit [DecidableEq K] in
theorem eventually_bind_left {P : Q → Prop} {p : Prog Q A E α} {f : α → Prog Q A E β} (h : srv.Eventually P p) :
    srv.Eventually P (p.bind f) := by
  induction p with
  | ret a => exact h.elim
  | stop e => exact h.elim
  | call q k ih =>
    rcases h with h | h
    · exact .inl h
    · exact .inr fun v => ih _ (h v)

omit [DecidableEq K] in
theorem eventually_handle {P : Q → Prop} {p : Prog Q A E α} {h : E → Prog Q A E α} (hp : srv.Eventually P p) :
    srv.Eventually P (p.handle h) := by
  induction p with
  | ret a => exact hp.elim
  | stop e => exact hp.elim
  | call q k ih =>
    rcases hp with hq | hp
    · exact .inl hq
    · exact .inr fun v => ih _ (hp v)

variable (srv) in
/-- whatever the answers of the server, the program ends with a value -/
def Returns : Prog Q A E α → Prop
  | .ret _ => True
  | .stop _ => False
  | .call q k => ∀ v, Returns (k (srv.answer q v))

omit [DecidableEq K] in
theorem eventually_bind_right {P : Q → Prop} {p : Prog Q A E α} {f : α → Prog Q A E β} (hp : srv.Returns p)
    (h : ∀ a, srv.Eventually P (f a)) : srv.Eventually P (p.bind f) := by
  induction p with
  | ret a => exact h a
  | stop e => exact hp.elim
  | call q k ih => exact .inr fun v => ih _ (hp v)

omit [DecidableEq K] in
theorem eventually_forEach {P : Q → Prop} {f : ι → Prog Q A E Unit} {l : List ι} (h : ∀ i ∈ l, srv.Returns (f i)) {i : ι}
    (hi : i ∈ l) (hev : srv.Eventually P (f i)) : srv.Eventually P (Prog.forEach f l) := by
  induction l with
  | nil => cases hi
  | cons j l ih =>
    rcases List.mem_cons.1 hi with rfl | hi
    · exact eventually_bind_left hev
    · refine eventually_bind_right (h j List.mem_cons_self) ?_
      intro _
      exact ih (fun i hi => h i (List.mem_cons_of_mem j hi)) hi

end Server

end DrasiPlatform.Programs
