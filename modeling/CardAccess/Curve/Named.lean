import CardAccess.Curve.Domain

/-!
# The curves with a name

Certificates state their curve by its numbers, private keys by an object
identifier.  The three curves here have both.
-/

namespace CardAccess

/-- A curve that has an object identifier. -/
inductive NamedCurve where
  | brainpoolP256r1
  | brainpoolP384r1
  | brainpoolP512r1
  deriving DecidableEq, Repr

namespace NamedCurve

def all : List NamedCurve := [.brainpoolP256r1, .brainpoolP384r1, .brainpoolP512r1]

def name : NamedCurve → String
  | .brainpoolP256r1 => "BrainpoolP256r1"
  | .brainpoolP384r1 => "BrainpoolP384r1"
  | .brainpoolP512r1 => "BrainpoolP512r1"

/-- The object identifier, below `1.3.36.3.3.2.8.1.1`. -/
def objectId : NamedCurve → ObjectId
  | .brainpoolP256r1 => ⟨[0x2B, 0x24, 0x03, 0x03, 0x02, 0x08, 0x01, 0x01, 0x07]⟩
  | .brainpoolP384r1 => ⟨[0x2B, 0x24, 0x03, 0x03, 0x02, 0x08, 0x01, 0x01, 0x0B]⟩
  | .brainpoolP512r1 => ⟨[0x2B, 0x24, 0x03, 0x03, 0x02, 0x08, 0x01, 0x01, 0x0D]⟩

def ofObjectId? (id : ObjectId) : Option NamedCurve := all.find? fun curve => curve.objectId == id

def brainpoolP256r1Domain : Domain where
  p :=
    0xA9FB57DBA1EEA9BC3E660A909D838D726E3BF623D52620282013481D1F6E5377
  a :=
    0x7D5A0975FC2C3057EEF67530417AFFE7FB8055C126DC5C6CE94A4B44F330B5D9
  b :=
    0x26DC5C6CE94A4B44F330B5D9BBD77CBF958416295CF7E1CE6BCCDC18FF8C07B6
  generator := ⟨
    0x8BD2AEB9CB7E57CB2C4B482FFC81B7AFB9DE27E1E3BD23C23A4453BD9ACE3262,
    0x547EF835C3DAC4FD97F8461A14611DC9C27745132DED8E545C1D54C72F046997⟩
  order :=
    0xA9FB57DBA1EEA9BC3E660A909D838D718C397AA3B561A6F7901E0E82974856A7
  cofactor := 1

def brainpoolP384r1Domain : Domain where
  p :=
    0x8CB91E82A3386D280F5D6F7E50E641DF152F7109ED5456B412B1DA197FB71123ACD3A729901D1A71874700133107EC53
  a :=
    0x7BC382C63D8C150C3C72080ACE05AFA0C2BEA28E4FB22787139165EFBA91F90F8AA5814A503AD4EB04A8C7DD22CE2826
  b :=
    0x04A8C7DD22CE28268B39B55416F0447C2FB77DE107DCD2A62E880EA53EEB62D57CB4390295DBC9943AB78696FA504C11
  generator := ⟨
    0x1D1C64F068CF45FFA2A63A81B7C13F6B8847A3E77EF14FE3DB7FCAFE0CBD10E8E826E03436D646AAEF87B2E247D4AF1E,
    0x8ABE1D7520F9C2A45CB1EB8E95CFD55262B70B29FEEC5864E19C054FF99129280E4646217791811142820341263C5315⟩
  order :=
    0x8CB91E82A3386D280F5D6F7E50E641DF152F7109ED5456B31F166E6CAC0425A7CF3AB6AF6B7FC3103B883202E9046565
  cofactor := 1

def brainpoolP512r1Domain : Domain where
  p :=
    0xAADD9DB8DBE9C48B3FD4E6AE33C9FC07CB308DB3B3C9D20ED6639CCA703308717D4D9B009BC66842AECDA12AE6A380E62881FF2F2D82C68528AA6056583A48F3
  a :=
    0x7830A3318B603B89E2327145AC234CC594CBDD8D3DF91610A83441CAEA9863BC2DED5D5AA8253AA10A2EF1C98B9AC8B57F1117A72BF2C7B9E7C1AC4D77FC94CA
  b :=
    0x3DF91610A83441CAEA9863BC2DED5D5AA8253AA10A2EF1C98B9AC8B57F1117A72BF2C7B9E7C1AC4D77FC94CADC083E67984050B75EBAE5DD2809BD638016F723
  generator := ⟨
    0x81AEE4BDD82ED9645A21322E9C4C6A9385ED9F70B5D916C1B43B62EEF4D0098EFF3B1F78E2D0D48D50D1687B93B97D5F7C6D5047406A5E688B352209BCB9F822,
    0x7DDE385D566332ECC0EABFA9CF7822FDF209F70024A57B1AA000C55B881F8111B2DCDE494A5F485E5BCA4BD88A2763AED1CA2B2FA8F0540678CD1E0F3AD80892⟩
  order :=
    0xAADD9DB8DBE9C48B3FD4E6AE33C9FC07CB308DB3B3C9D20ED6639CCA70330870553E5C414CA92619418661197FAC10471DB1D381085DDADDB58796829CA90069
  cofactor := 1

def domain : NamedCurve → Domain
  | .brainpoolP256r1 => brainpoolP256r1Domain
  | .brainpoolP384r1 => brainpoolP384r1Domain
  | .brainpoolP512r1 => brainpoolP512r1Domain

end NamedCurve

/-- The named curve of a domain: the one with the same equation and base point.
Order and cofactor are not compared. -/
def Domain.namedCurve? (d : Domain) : Option NamedCurve :=
  NamedCurve.all.find? fun curve =>
    let named := curve.domain
    named.p == d.p && named.a == d.a && named.b == d.b && named.generator == d.generator

end CardAccess
