import Sigil.State.Pubkey

/-!
# Addresses that the kit knows

The constants of `types.ts` and the token registry of `core/registry.ts`. On devnet the stablecoins are those of the
program's devnet build.
-/

namespace Sigil.Sdk

inductive Network where
  | devnet | mainnetBeta
  deriving DecidableEq, Repr

def usdcMintMainnet : Pubkey := .ofBytes
  [198, 250, 122, 243, 190, 219, 173, 58, 61, 101, 243, 106, 171, 201, 116, 49, 177, 187, 228, 194,
   210, 246, 224, 228, 124, 166, 2, 3, 69, 47, 93, 97]

def usdtMintMainnet : Pubkey := .ofBytes
  [206, 1, 14, 96, 175, 237, 178, 39, 23, 189, 99, 25, 47, 84, 20, 90, 63, 150, 90, 51, 187, 130,
   210, 199, 2, 158, 178, 206, 30, 32, 130, 100]

def Network.usdcMint : Network → Pubkey
  | .devnet => Sigil.usdcMint
  | .mainnetBeta => usdcMintMainnet

def Network.usdtMint : Network → Pubkey
  | .devnet => Sigil.usdtMint
  | .mainnetBeta => usdtMintMainnet

def isStablecoinMint (mint : Pubkey) (network : Network) : Bool :=
  mint = network.usdcMint || mint = network.usdtMint

/-! ## Known tokens -/

structure TokenInfo where
  mint : Pubkey
  symbol : String
  decimals : Nat
  deriving DecidableEq, Repr

def solMint : Pubkey := .ofBytes
  [6, 155, 136, 87, 254, 171, 129, 132, 251, 104, 127, 99, 70, 24, 192, 53, 218, 196, 57, 220, 26,
   235, 59, 85, 152, 160, 240, 0, 0, 0, 0, 1]

def knownTokens : List TokenInfo :=
  [{ mint := usdcMintMainnet, symbol := "USDC", decimals := 6 },
   { mint := usdtMintMainnet, symbol := "USDT", decimals := 6 },
   { mint := .ofBytes
      [7, 7, 49, 45, 29, 65, 218, 113, 240, 251, 40, 12, 22, 98, 205, 101, 235, 235, 46, 8, 89, 192,
       203, 174, 63, 219, 220, 178, 108, 134, 224, 175], symbol := "USDS", decimals := 6 },
   { mint := solMint, symbol := "SOL", decimals := 9 },
   { mint := .ofBytes
      [35, 60, 234, 71, 77, 108, 181, 19, 218, 212, 33, 200, 46, 104, 31, 128, 237, 117, 18, 69, 93,
       251, 145, 252, 104, 54, 59, 153, 217, 21, 101, 130], symbol := "wBTC", decimals := 8 },
   { mint := .ofBytes
      [9, 30, 115, 209, 122, 85, 38, 212, 72, 229, 137, 174, 165, 175, 231, 194, 44, 214, 28, 91,
       102, 168, 106, 66, 122, 178, 98, 48, 149, 20, 229, 92], symbol := "cbBTC", decimals := 8 },
   { mint := .ofBytes
      [102, 229, 24, 138, 19, 8, 161, 219, 144, 182, 211, 31, 63, 189, 202, 140, 61, 242, 103, 140,
       129, 18, 223, 221, 61, 25, 44, 90, 60, 196, 87, 168], symbol := "wETH", decimals := 8 },
   { mint := .ofBytes
      [11, 98, 186, 7, 79, 114, 44, 157, 65, 20, 242, 216, 247, 10, 0, 198, 96, 2, 51, 123, 155, 249,
       12, 135, 54, 87, 166, 210, 1, 219, 76, 128], symbol := "mSOL", decimals := 9 },
   { mint := .ofBytes
      [252, 209, 65, 233, 131, 44, 175, 16, 173, 145, 116, 149, 202, 15, 39, 27, 91, 41, 60, 212,
       112, 39, 234, 115, 112, 7, 237, 64, 235, 57, 160, 189], symbol := "jitoSOL", decimals := 9 },
   { mint := .ofBytes
      [8, 210, 233, 112, 249, 60, 123, 61, 80, 25, 30, 97, 26, 205, 147, 170, 128, 165, 70, 180, 94,
       201, 101, 225, 139, 5, 135, 21, 86, 153, 200, 172], symbol := "bSOL", decimals := 9 }]

end Sigil.Sdk
