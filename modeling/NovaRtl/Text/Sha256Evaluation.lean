import NovaRtl.Text.Sha256

/-!
# Evaluating SHA-256

`digest` spelled out with sixteen words and eight working variables as arguments, each evaluated
before it is used, which is how the kernel evaluates it fast.
-/

namespace Text.Sha256

/-! ## The schedule as a sliding window -/

/-- The word that follows sixteen words. -/
def nextWord (window : List ℕ) : ℕ :=
  let word k := window.getD k 0
  let sigma0 := rotr (word 1) 7 ^^^ rotr (word 1) 18 ^^^ word 1 >>> 3
  let sigma1 := rotr (word 14) 17 ^^^ rotr (word 14) 19 ^^^ word 14 >>> 10
  (word 0 + sigma0 + word 9 + sigma1) % modulus

/-- The first `n` words of the schedule from a window on. -/
def stream : ℕ → List ℕ → List ℕ
  | n + 1, word :: window => word :: stream n (window ++ [nextWord (word :: window)])
  | _, _ => []

theorem stream_eq_take {n : ℕ} {window : List ℕ} (h : n ≤ window.length) :
    stream n window = window.take n := by
  induction n generalizing window with
  | zero => cases window <;> rfl
  | succ n ih =>
    cases window with
    | nil => simp at h
    | cons word window =>
      have hlength : n ≤ window.length := Nat.le_of_succ_le_succ h
      rw [stream, ih (by simp; omega), List.take_append_of_le_length hlength, List.take_succ_cons]

theorem getD_window {window : List ℕ} (past : List ℕ) (h : window.length = 16) {k : ℕ}
    (hk : k < 16) : (window.reverse ++ past).getD (15 - k) 0 = window.getD k 0 := by
  have hreverse : 15 - k < window.reverse.length := by
    rw [List.length_reverse]
    omega
  have hindex : window.length - 1 - (15 - k) = k := by omega
  rw [List.getD_eq_getElem?_getD, List.getD_eq_getElem?_getD, List.getElem?_append_left hreverse,
    List.getElem?_reverse (by omega), hindex]

theorem schedule_succ {n : ℕ} {window : List ℕ} (past : List ℕ) (h : window.length = 16) :
    schedule (n + 1) (window.reverse ++ past) =
      schedule n (nextWord window :: (window.reverse ++ past)) := by
  have hword := fun k hk => @getD_window window past h k hk
  simp only [schedule, nextWord, ← hword 0 (by decide), ← hword 1 (by decide),
    ← hword 9 (by decide), ← hword 14 (by decide)]

theorem reverse_schedule (n : ℕ) {window : List ℕ} (past : List ℕ) (h : window.length = 16) :
    (schedule n (window.reverse ++ past)).reverse = past.reverse ++ stream (n + 16) window := by
  induction n generalizing window past with
  | zero =>
    have htake : stream 16 window = window := by
      rw [stream_eq_take h.ge, List.take_of_length_le h.le]
    simp [schedule, htake]
  | succ n ih =>
    cases window with
    | nil => cases h
    | cons word window =>
      have hnext := @ih (window ++ [nextWord (word :: window)]) (word :: past) (by simpa using h)
      rw [schedule_succ past h, Nat.succ_add_eq_add_succ]
      simpa [stream] using hnext

/-! ## Rounds -/

/-- `k n`, with `n` evaluated first -/
def evaluated {α : Type} (n : ℕ) (k : ℕ → α) : α :=
  Nat.rec (motive := fun _ => α) (k 0) (fun m _ => k (Nat.succ m)) n

theorem evaluated_eq {α : Type} (n : ℕ) (k : ℕ → α) : evaluated n k = k n := by
  cases n <;> rfl

def quickRotr (x n : ℕ) : ℕ :=
  Nat.mod (Nat.lor (Nat.shiftRight x n) (Nat.shiftLeft x (Nat.sub 32 n))) 4294967296

/-- What is left of a compression: a function of the window and of the working variables. -/
abbrev Rounds : Type :=
  ℕ → ℕ → ℕ → ℕ → ℕ → ℕ → ℕ → ℕ → ℕ → ℕ → ℕ → ℕ → ℕ → ℕ → ℕ → ℕ →
    ℕ → ℕ → ℕ → ℕ → ℕ → ℕ → ℕ → ℕ → Digest

/-- The rounds with these constants. -/
noncomputable def quickRounds (constants : List ℕ) : Rounds :=
  List.rec (motive := fun _ => Rounds)
    (fun _ _ _ _ _ _ _ _ _ _ _ _ _ _ _ _ a b c d e f g h => ⟨a, b, c, d, e, f, g, h⟩)
    (fun constant _ rounds w₀ w₁ w₂ w₃ w₄ w₅ w₆ w₇ w₈ w₉ w₁₀ w₁₁ w₁₂ w₁₃ w₁₄ w₁₅
        a b c d e f g h =>
      evaluated (Nat.add (Nat.add (Nat.add (Nat.add h
        (Nat.xor (Nat.xor (quickRotr e 6) (quickRotr e 11)) (quickRotr e 25)))
        (Nat.xor (Nat.land e f) (Nat.land (Nat.xor e 4294967295) g))) constant) w₀) fun temp =>
      evaluated (Nat.mod (Nat.add (Nat.add temp
        (Nat.xor (Nat.xor (quickRotr a 2) (quickRotr a 13)) (quickRotr a 22)))
        (Nat.xor (Nat.xor (Nat.land a b) (Nat.land a c)) (Nat.land b c))) 4294967296) fun a' =>
      evaluated (Nat.mod (Nat.add d temp) 4294967296) fun e' =>
      evaluated (Nat.mod (Nat.add (Nat.add (Nat.add w₀
        (Nat.xor (Nat.xor (quickRotr w₁ 7) (quickRotr w₁ 18)) (Nat.shiftRight w₁ 3))) w₉)
        (Nat.xor (Nat.xor (quickRotr w₁₄ 17) (quickRotr w₁₄ 19)) (Nat.shiftRight w₁₄ 10)))
        4294967296) fun w₁₆ =>
        rounds w₁ w₂ w₃ w₄ w₅ w₆ w₇ w₈ w₉ w₁₀ w₁₁ w₁₂ w₁₃ w₁₄ w₁₅ w₁₆
          a' a b c e' e f g) constants

theorem quickRounds_eq (constants : List ℕ) (w₀ w₁ w₂ w₃ w₄ w₅ w₆ w₇ w₈ w₉ w₁₀ w₁₁ w₁₂ w₁₃ w₁₄ w₁₅
    a b c d e f g h : ℕ) :
    quickRounds constants w₀ w₁ w₂ w₃ w₄ w₅ w₆ w₇ w₈ w₉ w₁₀ w₁₁ w₁₂ w₁₃ w₁₄ w₁₅
      a b c d e f g h =
      (constants.zip (stream constants.length [w₀, w₁, w₂, w₃, w₄, w₅, w₆, w₇, w₈, w₉, w₁₀, w₁₁, w₁₂,
        w₁₃, w₁₄, w₁₅])).foldl round ⟨a, b, c, d, e, f, g, h⟩ := by
  induction constants generalizing w₀ w₁ w₂ w₃ w₄ w₅ w₆ w₇ w₈ w₉ w₁₀ w₁₁ w₁₂ w₁₃ w₁₄ w₁₅
    a b c d e f g h with
  | nil => rfl
  | cons constant constants ih =>
    rw [List.length_cons, stream, List.zip_cons_cons, List.foldl_cons, List.cons_append,
      List.cons_append, List.cons_append, List.cons_append, List.cons_append, List.cons_append,
      List.cons_append, List.cons_append, List.cons_append, List.cons_append, List.cons_append,
      List.cons_append, List.cons_append, List.cons_append, List.cons_append, List.nil_append,
      round, ← ih]
    simp only [quickRounds, evaluated_eq]
    rfl

noncomputable def quickCompress : Digest → List ℕ → Digest
  | ⟨a, b, c, d, e, f, g, h⟩,
    [w₀, w₁, w₂, w₃, w₄, w₅, w₆, w₇, w₈, w₉, w₁₀, w₁₁, w₁₂, w₁₃, w₁₄, w₁₅] =>
    match quickRounds constants w₀ w₁ w₂ w₃ w₄ w₅ w₆ w₇ w₈ w₉ w₁₀ w₁₁ w₁₂ w₁₃ w₁₄ w₁₅
        a b c d e f g h with
    | ⟨a', b', c', d', e', f', g', h'⟩ =>
      evaluated (Nat.mod (Nat.add a a') 4294967296) fun a =>
      evaluated (Nat.mod (Nat.add b b') 4294967296) fun b =>
      evaluated (Nat.mod (Nat.add c c') 4294967296) fun c =>
      evaluated (Nat.mod (Nat.add d d') 4294967296) fun d =>
      evaluated (Nat.mod (Nat.add e e') 4294967296) fun e =>
      evaluated (Nat.mod (Nat.add f f') 4294967296) fun f =>
      evaluated (Nat.mod (Nat.add g g') 4294967296) fun g =>
      evaluated (Nat.mod (Nat.add h h') 4294967296) fun h => ⟨a, b, c, d, e, f, g, h⟩
  | s, block => compress s block

theorem quickCompress_eq (s : Digest) (block : List ℕ) :
    quickCompress s block = compress s block := by
  fun_cases quickCompress with
  | case1 a b c d e f g h w₀ w₁ w₂ w₃ w₄ w₅ w₆ w₇ w₈ w₉ w₁₀ w₁₁ w₁₂ w₁₃ w₁₄ w₁₅
      a' b' c' d' e' f' g' h' hrounds =>
    have hschedule := @reverse_schedule 48
      [w₀, w₁, w₂, w₃, w₄, w₅, w₆, w₇, w₈, w₉, w₁₀, w₁₁, w₁₂, w₁₃, w₁₄, w₁₅] [] rfl
    rw [List.append_nil, List.reverse_nil, List.nil_append] at hschedule
    rw [quickRounds_eq] at hrounds
    rw [compress, hschedule]
    simp only [evaluated_eq]
    rw [show (48 + 16) = constants.length from rfl, hrounds]
    rfl
  | case2 => rfl

/-- `digest`, as the kernel evaluates it fast -/
noncomputable def quickDigest (message : List ℕ) : Digest :=
  let padded := words (pad message)
  (blocks (padded.length / 16) padded).foldl quickCompress initial

theorem quickDigest_eq (message : List ℕ) : quickDigest message = digest message := by
  rw [quickDigest, digest, show quickCompress = compress from funext₂ quickCompress_eq]

end Text.Sha256

