import Mathlib.Data.List.Induction

/-!
# Stuffed words and the frames they are cut into

A word is stuffed by writing the escape symbol before every special symbol and
masking it. A reader of an unbounded stream keeps one pending flag and, from the
last flag symbol on, the tokens read since. Nothing here fixes the alphabet, the
mask or what a frame means.
-/
namespace Stuffing

variable {α : Type}

/-- Which symbols must not occur bare, and how they are hidden. -/
structure Scheme (α : Type) where
  flag : α
  esc : α
  special : α → Bool
  mask : α → α
  flag_special : special flag = true
  esc_special : special esc = true
  flag_ne_esc : flag ≠ esc
  mask_mask : ∀ b, mask (mask b) = b
  mask_ne : ∀ b, mask b ≠ b
  mask_plain : ∀ b, special b = true → special (mask b) = false

/-- A data symbol as it was read and as it counts. -/
structure Token (α : Type) where
  raw : α
  value : α
  deriving DecidableEq, Repr

inductive Symbol (α : Type) where
  | flag : Symbol α
  | data : Token α → Symbol α
  deriving DecidableEq, Repr

/-- What the reader knows: an open escape, and the tokens since the last flag. -/
structure Scan (α : Type) where
  pending : Bool
  frame : Option (List (Token α))
  deriving DecidableEq, Repr

variable (c : Scheme α)

def stuffOne (b : α) : List α := if c.special b then [c.esc, c.mask b] else [b]

def stuff (bs : List α) : List α := bs.flatMap (stuffOne c)

/-- The token by which a stuffed symbol arrives. -/
def token (b : α) : Token α := if c.special b then ⟨c.mask b, b⟩ else ⟨b, b⟩

@[simp] theorem stuff_nil : stuff c [] = [] := rfl
@[simp] theorem stuff_cons (b : α) (bs : List α) :
    stuff c (b :: bs) = stuffOne c b ++ stuff c bs := rfl
@[simp] theorem stuff_append (a b : List α) : stuff c (a ++ b) = stuff c a ++ stuff c b :=
  List.flatMap_append

theorem stuffOne_plain {b : α} (h : c.special b = false) : stuffOne c b = [b] := by
  simp [stuffOne, h]

theorem stuffOne_special {b : α} (h : c.special b = true) :
    stuffOne c b = [c.esc, c.mask b] := by simp [stuffOne, h]

theorem plain_ne_esc {b : α} (h : c.special b = false) : b ≠ c.esc := by
  intro he
  rw [he, c.esc_special] at h
  cases h

/-- A stuffed word holds no special symbol but the escape. -/
theorem special_of_mem_stuff {bs : List α} {x : α} (h : x ∈ stuff c bs)
    (hx : c.special x = true) : x = c.esc := by
  obtain ⟨b, -, hb⟩ := List.mem_flatMap.mp h
  unfold stuffOne at hb
  split at hb
  next hs =>
    rcases List.mem_cons.mp hb with rfl | hb
    · rfl
    · rw [List.mem_singleton.mp hb, c.mask_plain b hs] at hx
      cases hx
  next hs =>
    rw [List.mem_singleton.mp hb] at hx
    exact absurd hx hs

theorem flag_not_mem_stuff (bs : List α) : c.flag ∉ stuff c bs :=
  fun h => c.flag_ne_esc (special_of_mem_stuff c h c.flag_special)

/-- A stuffed word never ends in a lone escape. -/
theorem getLast_stuff_ne_esc (bs : List α) : (stuff c bs).getLast? ≠ some c.esc := by
  induction bs using List.reverseRecOn with
  | nil => simp
  | append_singleton bs b ih =>
    intro h
    cases hs : c.special b with
    | false =>
      have he : b = c.esc := by simpa [stuffOne_plain c hs] using h
      exact plain_ne_esc c hs he
    | true =>
      have he : c.mask b = c.esc := by simpa [stuffOne_special c hs] using h
      exact plain_ne_esc c (c.mask_plain b hs) he

theorem length_stuff_le (bs : List α) : (stuff c bs).length ≤ 2 * bs.length := by
  induction bs with
  | nil => simp
  | cons b bs ih =>
    have h1 : (stuffOne c b).length ≤ 2 := by
      unfold stuffOne
      split <;> simp
    simp only [stuff_cons, List.length_append, List.length_cons]
    omega

@[simp] theorem token_value (b : α) : (token c b).value = b := by
  unfold token
  split <;> rfl

/-- The symbol at any position of a stuffed word is a bare data symbol, the escape
of a pair, or the masked symbol after it. -/
theorem stuff_split {bs u v : List α} {x : α} (h : stuff c bs = u ++ x :: v) :
    ∃ b₁ b b₂, bs = b₁ ++ b :: b₂ ∧
      ((c.special b = false ∧ x = b ∧ u = stuff c b₁ ∧ v = stuff c b₂) ∨
        (c.special b = true ∧ x = c.esc ∧ u = stuff c b₁ ∧ v = c.mask b :: stuff c b₂) ∨
        (c.special b = true ∧ x = c.mask b ∧ u = stuff c b₁ ++ [c.esc] ∧ v = stuff c b₂)) := by
  induction bs generalizing u with
  | nil => simp at h
  | cons b bs ih =>
    -- the position lies in the image of `b` or beyond it
    have later : ∀ u', u = stuffOne c b ++ u' → stuff c bs = u' ++ x :: v → ∃ b₁ d b₂,
        b :: bs = b₁ ++ d :: b₂ ∧
        ((c.special d = false ∧ x = d ∧ u = stuff c b₁ ∧ v = stuff c b₂) ∨
          (c.special d = true ∧ x = c.esc ∧ u = stuff c b₁ ∧ v = c.mask d :: stuff c b₂) ∨
          (c.special d = true ∧ x = c.mask d ∧ u = stuff c b₁ ++ [c.esc] ∧ v = stuff c b₂)) := by
      intro u' hu hv
      obtain ⟨b₁, d, b₂, rfl, hd⟩ := ih hv
      refine ⟨b :: b₁, d, b₂, rfl, ?_⟩
      subst hu
      simpa using hd
    cases hs : c.special b with
    | false =>
      rw [stuff_cons, stuffOne_plain c hs] at h
      cases u with
      | nil =>
        obtain ⟨rfl, rfl⟩ := List.cons.inj h
        exact ⟨[], b, bs, rfl, .inl ⟨hs, rfl, rfl, rfl⟩⟩
      | cons y u =>
        obtain ⟨rfl, ht⟩ := List.cons.inj h
        exact later u (by simp [stuffOne_plain c hs]) ht
    | true =>
      rw [stuff_cons, stuffOne_special c hs] at h
      match u with
      | [] =>
        obtain ⟨rfl, rfl⟩ := List.cons.inj h
        exact ⟨[], b, bs, rfl, .inr (.inl ⟨hs, rfl, rfl, rfl⟩)⟩
      | [y] =>
        obtain ⟨rfl, ht⟩ := List.cons.inj h
        obtain ⟨rfl, rfl⟩ := List.cons.inj ht
        exact ⟨[], b, bs, rfl, .inr (.inr ⟨hs, rfl, rfl, rfl⟩)⟩
      | y :: z :: u =>
        simp only [List.cons_append, List.nil_append, List.cons.injEq] at h
        obtain ⟨rfl, rfl, ht⟩ := h
        exact later u (by simp [stuffOne_special c hs]) ht

/-- An escape in a stuffed word hides a special symbol. -/
theorem esc_split {bs u v : List α} (h : stuff c bs = u ++ c.esc :: v) :
    ∃ b rest, c.special b = true ∧ v = c.mask b :: rest := by
  obtain ⟨b₁, b, b₂, -, ⟨hs, he, -, -⟩ | ⟨hs, -, -, hv⟩ | ⟨hs, he, -, -⟩⟩ := stuff_split c h
  · exact absurd he.symm (plain_ne_esc c hs)
  · exact ⟨b, stuff c b₂, hs, hv⟩
  · exact absurd he.symm (plain_ne_esc c (c.mask_plain b hs))

theorem esc_followed {bs : List α} {i : Nat} (h : (stuff c bs)[i]? = some c.esc) :
    ∃ b, c.special b = true ∧ (stuff c bs)[i + 1]? = some (c.mask b) := by
  obtain ⟨hi, he⟩ := List.getElem?_eq_some_iff.mp h
  have hcut : stuff c bs = (stuff c bs).take i ++ c.esc :: (stuff c bs).drop (i + 1) := by
    rw [← he, ← List.drop_eq_getElem_cons hi, List.take_append_drop]
  obtain ⟨b, rest, hs, hv⟩ := esc_split c hcut
  refine ⟨b, hs, ?_⟩
  have hhead := congrArg List.head? hv
  rwa [List.head?_drop] at hhead

/-- Words with one terminator, at their end, are no prefixes of each other. -/
theorem terminated_prefix {x : α} {a b : List α} (ha : x ∉ a) (hb : x ∉ b)
    (h : a ++ [x] <+: b ++ [x]) : a = b := by
  induction a generalizing b with
  | nil =>
    cases b with
    | nil => rfl
    | cons y b =>
      rw [List.nil_append, List.cons_append, List.cons_prefix_cons] at h
      exact absurd (h.1 ▸ List.mem_cons_self) hb
  | cons z a ih =>
    cases b with
    | nil =>
      rw [List.cons_append, List.nil_append, List.cons_prefix_cons] at h
      exact absurd (h.1 ▸ List.mem_cons_self) ha
    | cons y b =>
      rw [List.cons_append, List.cons_append, List.cons_prefix_cons] at h
      obtain ⟨rfl, h⟩ := h
      rw [List.mem_cons, not_or] at ha hb
      rw [ih ha.2 hb.2 h]

section Reader

variable [DecidableEq α]

/-- One raw symbol: the new pending flag and the symbol it completes, if any. -/
def lex (pending : Bool) (b : α) : Bool × Option (Symbol α) :=
  if pending then (false, some (.data ⟨b, c.mask b⟩))
  else if b = c.flag then (false, some .flag)
  else if b = c.esc then (true, none)
  else (false, some (.data ⟨b, b⟩))

/-- A bare flag, a bare escape, or the end of a token. -/
theorem lex_cases (p : Bool) (b : α) :
    (p = false ∧ b = c.flag) ∨ (p = false ∧ b = c.esc) ∨
      ∃ t, lex c p b = (false, some (.data t)) := by
  cases p with
  | true => exact .inr (.inr ⟨⟨b, c.mask b⟩, rfl⟩)
  | false =>
    by_cases hf : b = c.flag
    · exact .inl ⟨rfl, hf⟩
    · by_cases he : b = c.esc
      · exact .inr (.inl ⟨rfl, he⟩)
      · exact .inr (.inr ⟨⟨b, b⟩, by simp [lex, hf, he]⟩)

/-- A token keeps the raw symbol it ends with. -/
theorem lex_raw {p : Bool} {b : α} {t : Token α} (h : (lex c p b).2 = some (.data t)) :
    t.raw = b := by
  unfold lex at h
  split at h
  next => cases h; rfl
  next =>
    split at h
    next => cases h
    next =>
      split at h
      next => cases h
      next => cases h; rfl

def scanOne (s : Scan α) (b : α) : Scan α :=
  match lex c s.pending b with
  | (p, some .flag) => ⟨p, some []⟩
  | (p, some (.data t)) => ⟨p, s.frame.map (· ++ [t])⟩
  | (p, none) => ⟨p, s.frame⟩

def scan (s : Scan α) (bs : List α) : Scan α := bs.foldl (scanOne c) s

/-- Whether an escape is left open by a word. -/
def opens (pending : Bool) (bs : List α) : Bool :=
  bs.foldl (fun p b => !p && b == c.esc) pending

/-- The tokens of a word that has no flag in it. -/
def tokens : Bool → List α → List (Token α)
  | _, [] => []
  | true, b :: bs => ⟨b, c.mask b⟩ :: tokens false bs
  | false, b :: bs => if b = c.esc then tokens true bs else ⟨b, b⟩ :: tokens false bs

@[simp] theorem tokens_nil (p : Bool) : tokens c p [] = [] := by cases p <;> rfl
@[simp] theorem tokens_true_cons (b : α) (bs : List α) :
    tokens c true (b :: bs) = ⟨b, c.mask b⟩ :: tokens c false bs := rfl
@[simp] theorem tokens_false_esc (bs : List α) :
    tokens c false (c.esc :: bs) = tokens c true bs := by simp [tokens]
theorem tokens_false_cons {b : α} (h : b ≠ c.esc) (bs : List α) :
    tokens c false (b :: bs) = ⟨b, b⟩ :: tokens c false bs := by simp [tokens, h]

@[simp] theorem opens_nil (p : Bool) : opens c p [] = p := rfl
@[simp] theorem opens_true_cons (b : α) (bs : List α) :
    opens c true (b :: bs) = opens c false bs := rfl
@[simp] theorem opens_false_esc (bs : List α) :
    opens c false (c.esc :: bs) = opens c true bs := by simp [opens]
theorem opens_false_cons {b : α} (h : b ≠ c.esc) (bs : List α) :
    opens c false (b :: bs) = opens c false bs := by
  simp [opens, beq_eq_false_iff_ne.mpr h]

theorem opens_append (p : Bool) (a b : List α) :
    opens c p (a ++ b) = opens c (opens c p a) b := List.foldl_append

/-- Any symbol but the escape closes an escape that is open before it. -/
theorem opens_concat (p : Bool) (bs : List α) {b : α} (h : b ≠ c.esc) :
    opens c p (bs ++ [b]) = false := by
  rw [opens_append]
  cases opens c p bs with
  | false => exact opens_false_cons c h []
  | true => rfl

theorem tokens_append (p : Bool) (a b : List α) :
    tokens c p (a ++ b) = tokens c p a ++ tokens c (opens c p a) b := by
  induction a generalizing p with
  | nil => simp
  | cons x a ih =>
    cases p with
    | true => simp [ih]
    | false =>
      by_cases h : x = c.esc
      · subst h; simp [ih]
      · simp [tokens_false_cons c h, opens_false_cons c h, ih]

/-- A token ends with a symbol of its own. -/
theorem tokens_sublist (p : Bool) (bs : List α) : ((tokens c p bs).map Token.raw).Sublist bs := by
  induction bs generalizing p with
  | nil => simp
  | cons b bs ih =>
    cases p with
    | true => exact (ih false).cons_cons b
    | false =>
      by_cases he : b = c.esc
      · subst he
        rw [tokens_false_esc]
        exact (ih true).cons c.esc
      · rw [tokens_false_cons c he]
        exact (ih false).cons_cons b

theorem length_tokens_le (p : Bool) (bs : List α) : (tokens c p bs).length ≤ bs.length := by
  simpa using (tokens_sublist c p bs).length_le

theorem count_tokens_le (p : Bool) (bs : List α) (t : Token α) :
    (tokens c p bs).count t ≤ bs.count t.raw :=
  Nat.le_trans List.count_le_count_map ((tokens_sublist c p bs).count_le t.raw)

theorem tokens_of_lex {p : Bool} {b : α} {t : Token α} (h : lex c p b = (false, some (.data t)))
    (bs : List α) : tokens c p (b :: bs) = t :: tokens c false bs := by
  cases p with
  | true => simpa [lex] using h
  | false =>
    by_cases hf : b = c.flag
    · simp [lex, hf] at h
    · by_cases he : b = c.esc
      · simp [lex, he, Ne.symm c.flag_ne_esc] at h
      · rw [tokens_false_cons c he]
        simpa [lex, hf, he] using h

/-- A stuffed word is read back symbol for symbol and leaves no escape open. -/
theorem read_stuff (bs : List α) :
    tokens c false (stuff c bs) = bs.map (token c) ∧ opens c false (stuff c bs) = false := by
  induction bs with
  | nil => simp
  | cons b bs ih =>
    cases hs : c.special b with
    | false =>
      have he := plain_ne_esc c hs
      simp [stuffOne_plain c hs, tokens_false_cons c he, opens_false_cons c he, ih, token, hs]
    | true => simp [stuffOne_special c hs, ih, token, hs, c.mask_mask]

theorem tokens_stuff (bs : List α) : tokens c false (stuff c bs) = bs.map (token c) :=
  (read_stuff c bs).1

theorem opens_stuff (bs : List α) : opens c false (stuff c bs) = false := (read_stuff c bs).2

/-- The word taken from raw symbols by a reader with no escape open. -/
def word (bs : List α) : List α := (tokens c false bs).map Token.value

@[simp] theorem word_nil : word c [] = [] := rfl

theorem word_stuff_append (a bs : List α) : word c (stuff c a ++ bs) = a ++ word c bs := by
  rw [word, tokens_append, tokens_stuff, opens_stuff, List.map_append, List.map_map, word]
  congr 1
  simp [Function.comp_def]

@[simp] theorem word_stuff (bs : List α) : word c (stuff c bs) = bs := by
  simpa using word_stuff_append c bs []

theorem word_plain {b : α} (h : b ≠ c.esc) (bs : List α) : word c (b :: bs) = b :: word c bs := by
  simp [word, tokens_false_cons c h]

theorem word_escaped (b : α) (bs : List α) :
    word c (c.esc :: b :: bs) = c.mask b :: word c bs := by simp [word]

theorem stuff_injective : Function.Injective (stuff c) := by
  intro a b h
  rw [← word_stuff c a, h, word_stuff]

@[simp] theorem scan_nil (s : Scan α) : scan c s [] = s := rfl
@[simp] theorem scan_cons (s : Scan α) (b : α) (bs : List α) :
    scan c s (b :: bs) = scan c (scanOne c s b) bs := rfl

theorem scanOne_flag (f : Option (List (Token α))) :
    scanOne c ⟨false, f⟩ c.flag = ⟨false, some []⟩ := by simp [scanOne, lex]

theorem scanOne_esc (f : Option (List (Token α))) :
    scanOne c ⟨false, f⟩ c.esc = ⟨true, f⟩ := by
  simp [scanOne, lex, Ne.symm c.flag_ne_esc]

theorem scanOne_pending (f : Option (List (Token α))) (b : α) :
    scanOne c ⟨true, f⟩ b = ⟨false, f.map (· ++ [⟨b, c.mask b⟩])⟩ := by simp [scanOne, lex]

theorem scanOne_plain (f : Option (List (Token α))) {b : α} (hf : b ≠ c.flag) (he : b ≠ c.esc) :
    scanOne c ⟨false, f⟩ b = ⟨false, f.map (· ++ [⟨b, b⟩])⟩ := by simp [scanOne, lex, hf, he]

theorem scanOne_data {s : Scan α} {b : α} {t : Token α}
    (h : lex c s.pending b = (false, some (.data t))) :
    scanOne c s b = ⟨false, s.frame.map (· ++ [t])⟩ := by simp [scanOne, h]

/-- The pending flag depends on the raw symbols only, not on the frames. -/
theorem scan_pending (s : Scan α) (bs : List α) :
    (scan c s bs).pending = opens c s.pending bs := by
  induction bs generalizing s with
  | nil => rfl
  | cons b bs ih =>
    obtain ⟨p, f⟩ := s
    rw [scan_cons, ih]
    cases p with
    | true => rw [scanOne_pending]; rfl
    | false =>
      by_cases hf : b = c.flag
      · subst hf; rw [scanOne_flag, opens_false_cons c c.flag_ne_esc]
      · by_cases he : b = c.esc
        · subst he; rw [scanOne_esc, opens_false_esc]
        · rw [scanOne_plain c f hf he, opens_false_cons c he]

/-- A word without a flag adds its tokens to the open frame, if there is one. -/
theorem scan_tokens (p : Bool) (f : Option (List (Token α))) {bs : List α} (h : c.flag ∉ bs) :
    scan c ⟨p, f⟩ bs = ⟨opens c p bs, f.map (· ++ tokens c p bs)⟩ := by
  induction bs generalizing p f with
  | nil => cases f <;> simp
  | cons b bs ih =>
    have hb : b ≠ c.flag := fun he => h (he ▸ List.mem_cons_self)
    have hbs : c.flag ∉ bs := fun hm => h (List.mem_cons_of_mem b hm)
    cases p with
    | true =>
      rw [scan_cons, scanOne_pending, ih _ _ hbs]
      cases f <;> simp
    | false =>
      by_cases he : b = c.esc
      · subst he
        rw [scan_cons, scanOne_esc, ih _ _ hbs]
        cases f <;> simp
      · rw [scan_cons, scanOne_plain c f hb he, ih _ _ hbs, opens_false_cons c he,
          tokens_false_cons c he]
        cases f <;> simp

theorem scan_append (s : Scan α) (a b : List α) : scan c s (a ++ b) = scan c (scan c s a) b :=
  List.foldl_append

/-- A bare flag is never a token. -/
theorem lex_ne_flag {p : Bool} {b : α} {t : Token α} (h : lex c p b = (false, some (.data t))) :
    t ≠ ⟨c.flag, c.flag⟩ := by
  rintro rfl
  cases p with
  | true =>
    simp only [lex, if_true, Prod.mk.injEq, Option.some.injEq, Symbol.data.injEq, Token.mk.injEq,
      true_and] at h
    exact c.mask_ne b (h.2.trans h.1.symm)
  | false =>
    have hb : c.flag = b := lex_raw c (t := ⟨c.flag, c.flag⟩) (by rw [h])
    simp [lex, ← hb] at h

/-- The frame that is open after a stream: what was read since its last bare flag. -/
theorem scan_frame {bs : List α} {ts : List (Token α)}
    (h : (scan c ⟨false, none⟩ bs).frame = some ts) :
    ∃ before raw, bs = before ++ c.flag :: raw ∧ opens c false before = false ∧
      ts = tokens c false raw ∧ ⟨c.flag, c.flag⟩ ∉ ts := by
  induction bs using List.reverseRecOn generalizing ts with
  | nil => cases h
  | append_singleton bs b ih =>
    rw [scan_append, scan_cons, scan_nil] at h
    have hp : (scan c ⟨false, none⟩ bs).pending = opens c false bs := scan_pending c _ bs
    generalize scan c ⟨false, none⟩ bs = s at h ih hp
    obtain ⟨pending, f⟩ := s
    simp only at hp
    subst hp
    -- inside a frame only its own symbols decide whether an escape is open
    have inner : ∀ before raw, bs = before ++ c.flag :: raw → opens c false before = false →
        opens c false bs = opens c false raw := by
      rintro before raw rfl hb
      rw [opens_append, hb, opens_false_cons c c.flag_ne_esc]
    rcases lex_cases c (opens c false bs) b with ⟨hopen, rfl⟩ | ⟨hopen, rfl⟩ | ⟨t, ht⟩
    · rw [hopen, scanOne_flag] at h
      cases h
      exact ⟨bs, [], rfl, hopen, rfl, List.not_mem_nil⟩
    · rw [hopen, scanOne_esc] at h
      obtain ⟨before, raw, hbs, hb, rfl, hflag⟩ := ih h
      refine ⟨before, raw ++ [c.esc], by simp [hbs], hb, ?_, hflag⟩
      rw [tokens_append, ← inner before raw hbs hb, hopen]
      simp
    · rw [scanOne_data c ht] at h
      obtain ⟨us, rfl, rfl⟩ := Option.map_eq_some_iff.mp h
      obtain ⟨before, raw, hbs, hb, rfl, hflag⟩ := ih rfl
      refine ⟨before, raw ++ [b], by simp [hbs], hb, ?_, ?_⟩
      · rw [tokens_append, ← inner before raw hbs hb, tokens_of_lex c ht, tokens_nil]
      · exact List.not_mem_append hflag (by simpa using (lex_ne_flag c ht).symm)

/-- A word without a bare flag adds its tokens to the open frame; a flag behind an escape is
a token like any other. -/
theorem scan_bare (p : Bool) (f : Option (List (Token α))) {bs : List α}
    (h : ⟨c.flag, c.flag⟩ ∉ tokens c p bs) :
    scan c ⟨p, f⟩ bs = ⟨opens c p bs, f.map (· ++ tokens c p bs)⟩ := by
  induction bs generalizing p f with
  | nil => cases f <;> simp
  | cons b bs ih =>
    cases p with
    | true =>
      rw [tokens_true_cons, List.mem_cons, not_or] at h
      rw [scan_cons, scanOne_pending, ih _ _ h.2]
      cases f <;> simp
    | false =>
      by_cases he : b = c.esc
      · subst he
        rw [tokens_false_esc] at h
        rw [scan_cons, scanOne_esc, ih _ _ h]
        cases f <;> simp
      · rw [tokens_false_cons c he, List.mem_cons, not_or] at h
        have hf : b ≠ c.flag := by
          rintro rfl
          exact h.1 rfl
        rw [scan_cons, scanOne_plain c f hf he, ih _ _ h.2, opens_false_cons c he,
          tokens_false_cons c he]
        cases f <;> simp

/-- A bare escape is never a token either. -/
theorem esc_not_token (p : Bool) (bs : List α) : ⟨c.esc, c.esc⟩ ∉ tokens c p bs := by
  induction bs generalizing p with
  | nil => simp
  | cons b bs ih =>
    cases p with
    | true =>
      rw [tokens_true_cons, List.mem_cons, not_or]
      refine ⟨fun h => ?_, ih false⟩
      obtain ⟨hraw, hvalue⟩ := Token.mk.inj h
      exact c.mask_ne b (hvalue.symm.trans hraw)
    | false =>
      by_cases he : b = c.esc
      · subst he
        rw [tokens_false_esc]
        exact ih true
      · rw [tokens_false_cons c he, List.mem_cons, not_or]
        exact ⟨fun h => he (Token.mk.inj h).1.symm, ih false⟩

/-- The escape in front of a word that is read with an escape open. -/
def opened (p : Bool) (bs : List α) : List α := if p = true then c.esc :: bs else bs

/-- Nothing that is read back as a word, with its special symbols behind escapes, is shorter
than the stuffed word, and nothing else is as short. -/
theorem stuff_shortest (p : Bool) {bs : List α}
    (h : ∀ t ∈ tokens c p bs, t.raw = t.value → c.special t.value = false) :
    (stuff c ((tokens c p bs).map Token.value)).length ≤ (opened c p bs).length ∧
      ((stuff c ((tokens c p bs).map Token.value)).length = (opened c p bs).length →
        opened c p bs = stuff c ((tokens c p bs).map Token.value)) := by
  induction bs generalizing p with
  | nil => cases p <;> simp [opened]
  | cons b bs ih =>
    cases p with
    | true =>
      rw [tokens_true_cons] at h ⊢
      obtain ⟨hle, heq⟩ := ih false fun t ht => h t (List.mem_cons_of_mem _ ht)
      simp only [opened, Bool.false_eq_true, if_false, if_true, List.map_cons, stuff_cons,
        List.length_append, List.length_cons] at hle heq ⊢
      cases hs : c.special (c.mask b) with
      | true =>
        rw [stuffOne_special c hs, c.mask_mask]
        simp only [List.length_cons, List.length_nil]
        refine ⟨by omega, fun hlen => ?_⟩
        rw [List.cons_append, List.singleton_append, ← heq (by omega)]
      | false =>
        rw [stuffOne_plain c hs, List.length_singleton]
        exact ⟨by omega, fun hlen => absurd hlen (by omega)⟩
    | false =>
      by_cases he : b = c.esc
      · subst he
        rw [tokens_false_esc] at h ⊢
        exact ih true h
      · rw [tokens_false_cons c he] at h ⊢
        obtain ⟨hle, heq⟩ := ih false fun t ht => h t (List.mem_cons_of_mem _ ht)
        have hs : c.special b = false := h ⟨b, b⟩ List.mem_cons_self rfl
        simp only [opened, Bool.false_eq_true, if_false, List.map_cons, stuff_cons,
          stuffOne_plain c hs, List.length_cons, List.singleton_append] at hle heq ⊢
        refine ⟨by omega, fun hlen => ?_⟩
        rw [← heq (by omega)]

end Reader

end Stuffing
