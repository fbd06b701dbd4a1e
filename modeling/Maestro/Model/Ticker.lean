import Mathlib.Tactic.Ring

/-!
# 走りの時計（`runTicker`）

`time.Time` の時刻は、`Truncate` の基準の時刻から数えたナノ秒の数（整数）とし、期間とずれは
`time.Duration` のナノ秒の数とする。`runTicker` の一回りは、その時の `time.Now()` から次の時刻 `next` を
決め、`next` が今より前なら一秒眠ってやり直し、そうでなければ `next` まで眠って tick を送る。眠りは
指定の長さちょうどとし、最初の tick を送る時刻を調べる。

`freqPostHandler` は、ずれが期間より小さいことしか確かめない。ずれが期間のマイナスより小さいと、`next` は
いつも今より前になり、時計は一秒ごとにやり直すばかりで、tick を送らない。ずれが期間のマイナスより大きく
期間より小さければ、最初の tick は、ずれと期間を法として等しい時刻に、始めてから一期間のうちに送られる。
-/

namespace Maestro.Model

/-- 一秒（ナノ秒の数）。 -/
def second : Int := 1000000000

/-- `t.Truncate(d)`（`d > 0`）：基準の時刻から数えて、`d` の倍数へ切り下げる。 -/
def truncate (t d : Int) : Int := t - t % d

/-- `runTicker` の一回りの `next`。 -/
def nextRun (period offset now : Int) : Int :=
  if now < truncate now period + offset then truncate now period + offset
  else truncate now period + period + offset

/-- `runTicker` の繰り返し。時刻 `now` に始めて、最初の tick を送る時刻を返す。`fuel` 回りのうちに
送らなければ `none`。 -/
def firstTick (period offset : Int) : Nat → Int → Option Int
  | 0, _ => none
  | fuel + 1, now =>
    let next := nextRun period offset now
    if next < now then firstTick period offset fuel (now + second) else some next

/-- `freqPostHandler` の確かめ：名前が空でなく、期間が 0 でなく、ずれが期間より小さい（秒の数）。 -/
def freqPostCheck (name : String) (period offset : Int) : Except String Unit :=
  if name.length = 0 ∨ period = 0 then .error "Name cannot be blank, period must > 0."
  else if period ≤ offset then .error "Offset must be less than Period"
  else .ok ()

/-! ## 切り下げ -/

section Truncate

variable {p : Int} (hp : 0 < p)

theorem dvd_truncate (t : Int) : p ∣ truncate t p := by
  rw [truncate, Int.dvd_iff_emod_eq_zero, Int.sub_emod, Int.emod_emod_of_dvd _ (Int.dvd_refl p), sub_self,
    Int.zero_emod]

include hp in
theorem truncate_le (t : Int) : truncate t p ≤ t := by
  have := Int.emod_nonneg t hp.ne'
  unfold truncate; omega

include hp in
theorem lt_truncate_add (t : Int) : t < truncate t p + p := by
  have := Int.emod_lt_of_pos t hp
  unfold truncate; omega

/-- `p` の倍数 `T` から一期間のうちの時刻は、`T` に切り下がる。 -/
theorem truncate_eq {T t : Int} (hT : p ∣ T) (h₁ : T ≤ t) (h₂ : t < T + p) : truncate t p = T := by
  obtain ⟨c, rfl⟩ := hT
  have : t % p = t - p * c := by
    rw [show t = (t - p * c) + p * c by ring, Int.add_mul_emod_self_left,
      Int.emod_eq_of_lt (by omega) (by omega)]
    ring
  unfold truncate; omega

theorem emod_add_of_dvd {T : Int} (hT : p ∣ T) (o : Int) : (T + o) % p = o % p := by
  obtain ⟨c, rfl⟩ := hT
  rw [add_comm, Int.add_mul_emod_self_left]

end Truncate

/-! ## ずれが期間のマイナスより小さいとき -/

section Never

variable {p o : Int} (hp : 0 < p)

include hp in
/-- ずれが期間のマイナスより小さいと、`next` はいつも今より前である。 -/
theorem nextRun_lt_of_lt_neg (ho : o < -p) (now : Int) : nextRun p o now < now := by
  have h₁ := truncate_le hp now
  unfold nextRun
  split <;> omega

include hp in
/-- ずれが期間のマイナスちょうどなら、`next` は今の時刻を期間の倍数へ切り下げた時刻である。 -/
theorem nextRun_neg (now : Int) : nextRun p (-p) now = truncate now p := by
  have h₁ := truncate_le hp now
  unfold nextRun
  split <;> omega

include hp in
theorem firstTick_none_of_lt_neg (ho : o < -p) : ∀ fuel now, firstTick p o fuel now = none
  | 0, _ => rfl
  | fuel + 1, now => by
    simp only [firstTick, if_pos (nextRun_lt_of_lt_neg hp ho now), firstTick_none_of_lt_neg ho fuel]

include hp in
/-- ずれが期間のマイナスちょうどで、始めの時刻が秒の区切りにないと、`next` は今より前のままである。 -/
theorem firstTick_none_of_neg (hs : second ∣ p) :
    ∀ fuel now, now % second ≠ 0 → firstTick p (-p) fuel now = none
  | 0, _, _ => rfl
  | fuel + 1, now, hnow => by
    have hlt : nextRun p (-p) now < now := by
      rw [nextRun_neg hp]
      have h₁ := truncate_le hp now
      refine lt_of_le_of_ne h₁ fun h => hnow ?_
      have hmod : now % p = 0 := by unfold truncate at h; omega
      rw [← Int.emod_emod_of_dvd now hs, hmod, Int.zero_emod]
    have hnext : (now + second) % second ≠ 0 := by rwa [Int.add_emod_self]
    simp only [firstTick, if_pos hlt, firstTick_none_of_neg hs fuel _ hnext]

end Never

/-- `freqPostHandler` は、期間のマイナスより小さいずれを受け付ける。その `runTicker` は、どの時刻に始めても、
何回りしても tick を送らない。ずれが期間のマイナスちょうどでも、始めの時刻が秒の区切りになければ送らない。 -/
theorem runTicker_never_ticks (name : String) (hname : 0 < name.length) (P O t : Int) (hP : 0 < P)
    (hO : O < -P ∨ (O = -P ∧ t % second ≠ 0)) :
    freqPostCheck name P O = .ok () ∧ ∀ fuel, firstTick (P * second) (O * second) fuel t = none := by
  have hp : 0 < P * second := by unfold second; omega
  refine ⟨?_, fun fuel => ?_⟩
  · have : ¬P ≤ O := by omega
    simp [freqPostCheck, this, hname.ne', hP.ne']
  · rcases hO with hO | ⟨rfl, ht⟩
    · exact firstTick_none_of_lt_neg hp (by unfold second; omega) fuel t
    · rw [neg_mul]
      exact firstTick_none_of_neg hp (Dvd.intro_left P rfl) fuel t ht

theorem runTicker_never_ticks_hourly :
    freqPostCheck "hourly" 3600 (-7200) = .ok () ∧ ∀ fuel, firstTick (3600 * second) (-7200 * second) fuel 0 = none :=
  runTicker_never_ticks "hourly" (by decide) 3600 (-7200) 0 (by decide) (.inl (by decide))

/-! ## ずれが期間のマイナスより大きいとき -/

section Fires

variable {p o : Int} (hp : 0 < p) (hs : second ∣ p) (hso : second ∣ o)

include hp hs hso in
/-- 期間の倍数 `T` の少し前から一秒ずつやり直すと、`T` を過ぎた最初の回りで、`T + p + o` に tick を送る。 -/
theorem firstTick_retry (hlo : -p < o) (hneg : o < 0) {T : Int} (hT : p ∣ T) :
    ∀ (fuel : Nat) (now : Int), T + o < now → now < T + second → T - now + second ≤ fuel * second →
      firstTick p o fuel now = some (T + p + o)
  | 0, now, _, _, hf => by simp at hf; omega
  | fuel + 1, now, h₁, h₂, hf => by
    have hsec : (0 : Int) < second := by unfold second; omega
    have hpo : second ≤ p + o := Int.le_of_dvd (by omega) (Int.dvd_add hs hso)
    by_cases hnow : T ≤ now
    · have htr : truncate now p = T := truncate_eq hT hnow (by omega)
      have hnext : nextRun p o now = T + p + o := by
        unfold nextRun; rw [htr, if_neg (by omega)]
      simp only [firstTick, hnext, if_neg (show ¬T + p + o < now by omega)]
    · have htr : truncate now p = T - p :=
        truncate_eq (Int.dvd_sub hT (Int.dvd_refl p)) (by omega) (by omega)
      have hnext : nextRun p o now = T + o := by
        unfold nextRun; rw [htr, if_neg (by omega)]; ring
      simp only [firstTick, hnext, if_pos h₁]
      have : ((fuel + 1 : Nat) : Int) * second = fuel * second + second := by push_cast; ring
      exact firstTick_retry hlo hneg hT fuel (now + second) (by omega) (by omega) (by omega)

include hp hs hso in
/-- 最初の tick：期間の秒の数より一回り多いうちに送り、その時刻はずれと期間を法として等しく、始めの時刻から
一期間のうちにある。 -/
theorem firstTick_first (hlo : -p < o) (hhi : o < p) (t : Int) :
    ∃ e, firstTick p o (p / second).toNat.succ t = some e ∧ e % p = o % p ∧ t ≤ e ∧ e ≤ t + p := by
  have hsec : (0 : Int) < second := by unfold second; omega
  have h₁ := truncate_le hp t
  have h₂ := lt_truncate_add hp t
  have hk := dvd_truncate (p := p) t
  set k := truncate t p
  by_cases hno : 0 ≤ o
  · have hnot : ¬nextRun p o t < t := by unfold nextRun; split <;> omega
    refine ⟨nextRun p o t, by simp only [firstTick, if_neg hnot], ?_, by omega, ?_⟩
    · unfold nextRun; split
      · exact emod_add_of_dvd hk o
      · exact emod_add_of_dvd (Int.dvd_add hk (Int.dvd_refl p)) o
    · unfold nextRun; split <;> omega
  have hnext : nextRun p o t = k + p + o := by unfold nextRun; rw [if_neg (by omega)]
  by_cases hlate : t ≤ k + p + o
  · refine ⟨k + p + o, by simp only [firstTick, hnext, if_neg (show ¬k + p + o < t by omega)],
      emod_add_of_dvd (Int.dvd_add hk (Int.dvd_refl p)) o, hlate, by omega⟩
  · have hpsec : p / second * second = p := Int.ediv_mul_cancel hs
    refine ⟨k + p + p + o, ?_, emod_add_of_dvd (Int.dvd_add (Int.dvd_add hk (Int.dvd_refl p)) (Int.dvd_refl p)) o,
      by omega, by omega⟩
    simp only [firstTick, hnext, if_pos (show k + p + o < t by omega)]
    refine firstTick_retry hp hs hso hlo (by omega) (Int.dvd_add hk (Int.dvd_refl p)) _ _ (by omega) (by omega) ?_
    have : (0 : Int) ≤ p / second := Int.ediv_nonneg hp.le hsec.le
    rw [Int.toNat_of_nonneg this, hpsec]
    omega

include hp hs hso in
/-- ずれが期間のマイナスより大きく期間より小さければ、`runTicker` は期間の秒の数より一回り多いうちに最初の
tick を送る。その時刻はずれと期間を法として等しく、始めの時刻から一期間のうちにある。ずれが負で、`next` が
`now` より前なら、一秒ずつのやり直しは、次の期間の倍数 `T` を過ぎた最初の回りで終わる。 -/
theorem firstTick_spec (hlo : -p < o) (hhi : o < p) (t : Int) :
    (∃ e, firstTick p o (p / second).toNat.succ t = some e ∧ e % p = o % p ∧ t ≤ e ∧ e ≤ t + p) ∧
    (o < 0 → ∀ T, p ∣ T → ∀ (fuel : Nat) (now : Int), T + o < now → now < T + second →
      T - now + second ≤ fuel * second → firstTick p o fuel now = some (T + p + o)) :=
  ⟨firstTick_first hp hs hso hlo hhi t, fun hneg _ hT => firstTick_retry hp hs hso hlo hneg hT⟩

end Fires

theorem firstTick_spec_hourly :
    (∃ e, firstTick (3600 * second) (-600 * second) ((3600 * second) / second).toNat.succ 0 = some e ∧
      e % (3600 * second) = -600 * second % (3600 * second) ∧ 0 ≤ e ∧ e ≤ 0 + 3600 * second) ∧
    (-600 * second < 0 → ∀ T, 3600 * second ∣ T → ∀ (fuel : Nat) (now : Int), T + -600 * second < now →
      now < T + second → T - now + second ≤ fuel * second →
        firstTick (3600 * second) (-600 * second) fuel now = some (T + 3600 * second + -600 * second)) :=
  firstTick_spec (by decide) (Dvd.intro_left 3600 rfl) (Dvd.intro_left (-600) rfl) (by decide) (by decide) 0

end Maestro.Model
