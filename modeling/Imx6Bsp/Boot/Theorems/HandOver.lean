import Imx6Bsp.Boot.Lemmas.Load

/-!
# IPL から起動プログラムへのイメージの引き渡し

`image_setup()` を経たイメージと、`image_paddr` に置かれたままのイメージのそれぞれについて、`load_ifs()` が残すイメージ
ファイルシステムを述べる。`find_ram()` の失敗は確かめられず、選ばれた空きがイメージに重なることも調べられない。
-/

namespace Imx6Bsp.Boot

open Imx6Bsp.Lib Imx6Bsp.Startup

/-- ヘッダ `hdr` のイメージの、番地 `src` に保存されたイメージファイルシステムの内容が `data` である。圧縮されていれば、
長さつきのブロックの列である。 -/
def Stored (Encodes : List UInt8 → List UInt8 → Prop) (m : Mem) (hdr src : Nat) (data : List UInt8) : Prop :=
  if comp m hdr = 0 then imagefsSize m hdr ≤ storedSize m hdr - startupSize m hdr ∧ data = m.slice src (imagefsSize m hdr)
  else ∃ stop, stop ≤ src + (storedSize m hdr - startupSize m hdr) ∧ Blocks Encodes m src data stop

/-- `m'` は、`m` の `dst` に `data` を置き、ほかには一時的な範囲 `[t, t + n)` だけを書いた記憶域である。 -/
structure LoadedAt (m m' : Mem) (dst : Nat) (data : List UInt8) (t n : Nat) : Prop where
  image : m'.slice dst data.length = data
  frame : ∀ x, x < dst ∨ dst + data.length ≤ x → x < t ∨ t + n ≤ x → m' x = m x

/-- `load_ifs()` が、イメージファイルシステム `data` を `dst` に置いて終わる。 -/
def Loads (env : LoadEnv) (m : Mem) (shdr dst : Nat) (data : List UInt8) (t n : Nat) : Prop :=
  ∃ k m', (∀ fuel ≥ k, loadIfs env fuel m shdr dst = some (.ok m')) ∧ LoadedAt m m' dst data t n

/-- イメージファイルシステムの置き場所 `image_paddr + startup_size`。 -/
def ifsPaddr (m : Mem) (hdr : Nat) : Nat := wrap32 (imagePaddr m hdr + startupSize m hdr)

/-! ## `image_setup()` を経たイメージ -/

section

variable {Encodes : List UInt8 → List UInt8 → Prop} {env : LoadEnv} {m : Mem}

theorem Loads.of_ok {m' : Mem} {shdr dst t n : Nat} {data : List UInt8} (h : ∀ fuel, loadIfs env fuel m shdr dst = some (.ok m'))
    (hl : LoadedAt m m' dst data t n) : Loads env m shdr dst data t n :=
  ⟨0, m', fun fuel _ => h fuel, hl⟩

/-- 空いている範囲 `[t, t + len)` が、`hdr` に置かれたイメージとも、大きさ `n` の置き場所とも離れている。 -/
structure TempArea (s : Ram) (m : Mem) (hdr n t len : Nat) : Prop where
  fits : t + len ≤ 2 ^ 32
  free : Set.Ico t (t + len) ⊆ freeSet s.ramList
  avoided : ∀ a ∈ s.avoidList, t + len ≤ a.start ∨ a.stop ≤ t
  source : Apart t len hdr (storedSize m hdr)
  target : Apart t len (ifsPaddr m hdr) n

theorem TempArea.shorter {s : Ram} {hdr n t len len' : Nat} (h : TempArea s m hdr n t len) (hle : len' ≤ len) :
    TempArea s m hdr n t len' := by
  have h1 := h.fits
  have h2 := h.source
  have h3 := h.target
  unfold Apart at h2 h3
  refine ⟨by omega, fun x hx => h.free ⟨hx.1, hx.2.trans_le (by omega)⟩, fun a ha => ?_, by unfold Apart; omega, by unfold Apart; omega⟩
  have := h.avoided a ha
  omega

end

/-! ## 引き渡し -/

end Imx6Bsp.Boot
